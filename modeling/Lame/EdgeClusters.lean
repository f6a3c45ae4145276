/-
  Lame/EdgeClusters.lean
  ======================
  **The clusters of boundary points: steps 2 and 3 of `apriltag_quad_thresh`.**

  Two neighbouring pixels of opposite colour give a boundary point.  Its cluster is found
  under a number made of the two representatives, in a hash table with chaining.  The number
  tells unordered pairs of components apart, so that two boundary points share a cluster
  exactly if their dark pixels hang together and their light ones do, and a cluster lists its
  points in the order of the scan.
-/
import Lame.HashChains
import Lame.Segmentation

namespace Lame

open ByteMemory DisjointSets HashChains

/-! ## 1. The code -/

/-- `struct pt`: twice the place of the point, and the gradient; `theta` is set later. -/
structure Pt where
  x : Nat
  y : Nat
  gx : Int
  gy : Int
deriving DecidableEq, Repr

def u64hash_2 (x : UInt64) : UInt32 := ((2654435761 * x) >>> 32).toUInt32

def clusterid (rep0 rep1 : UInt64) : UInt64 :=
  if rep0 < rep1 then (rep1 <<< 32) + rep0 else (rep0 <<< 32) + rep1

namespace ImageU8

def nclustermap (im : ImageU8) : Nat := 2 * im.width * im.height - 1

def clustermap_bucket (im : ImageU8) (id : UInt64) : Nat :=
  (u64hash_2 id).toNat % im.nclustermap

def point (x y : Nat) (v0 v1 : UInt8) (dx dy : Int) : Pt where
  x := (2 * x + dx).toNat
  y := (2 * y + dy).toNat
  gx := dx * ((v1.toNat : Int) - v0.toNat)
  gy := dy * ((v1.toNat : Int) - v0.toNat)

abbrev ClusterMap := List (Chain UInt64 Pt)

/-- `DO_CONN(dx, dy)` -/
def doConn (im : ImageU8) (x y : Nat) (v0 : UInt8) (rep0 : Nat)
    (state : UnionFind × ClusterMap) (d : Int × Int) : Exec (UnionFind × ClusterMap) := do
  let (uf, clustermap) := state
  let v1 ← loadInt im.buf (y * im.stride + d.2 * im.stride + x + d.1)
  if v0.toNat + v1.toNat = 255 then
    let (uf, rep1) ← uf.getRepresentative
      (y * im.width + d.2 * im.width + x + d.1 : Int).toNat
    let id := clusterid (UInt64.ofNat rep0) (UInt64.ofNat rep1)
    let clustermap ← push im.clustermap_bucket clustermap (id, point x y v0 v1 d.1 d.2)
    return (uf, clustermap)
  else return (uf, clustermap)

/-- 4 connectivity, then 8 connectivity. -/
def CONN : List (Int × Int) := [(1, 0), (0, 1), (-1, 1), (1, 1)]

/-- The body of the loop over `x`. -/
def connPixel (im : ImageU8) (y : Nat) (state : UnionFind × ClusterMap) (x : Nat) :
    Exec (UnionFind × ClusterMap) := do
  let v0 ← load im.buf (y * im.stride + x)
  if v0 = 127 then return state
  else
    let (uf, rep0) ← state.1.getRepresentative (y * im.width + x)
    CONN.foldlM (im.doConn x y v0 rep0) (uf, state.2)

def connLine (im : ImageU8) (state : UnionFind × ClusterMap) (y : Nat) :
    Exec (UnionFind × ClusterMap) :=
  (List.range' 1 (im.width - 2)).foldlM (im.connPixel y) state

/-- From the segmented image to the list of clusters. -/
def edgeClusters (im : ImageU8) (uf : UnionFind) : Exec (List (List Pt)) := do
  let (_, clustermap) ← (List.range' 1 (im.height - 2)).foldlM im.connLine
    (uf, List.replicate im.nclustermap [])
  return clustermap.flatten.map Prod.snd

/-- `apriltag_quad_thresh` between the threshold and the quads, with `nthreads <= 1`. -/
def clusters (im : ImageU8) : Exec (List (List Pt)) := do
  let uf ← im.components
  im.edgeClusters uf

/-! ## 2. The numbers of the clusters -/

theorem toNat_ofNat_of_lt {n : Nat} (h : n < 2 ^ 32) : (UInt64.ofNat n).toNat = n := by
  rw [UInt64.toNat_ofNat']
  omega

/-- The larger representative stands in the upper half. -/
theorem toNat_clusterid {rep0 rep1 : Nat} (h0 : rep0 < 2 ^ 32) (h1 : rep1 < 2 ^ 32) :
    (clusterid (UInt64.ofNat rep0) (UInt64.ofNat rep1)).toNat =
      max rep0 rep1 * 2 ^ 32 + min rep0 rep1 := by
  have hshift {n : Nat} (h : n < 2 ^ 32) : (UInt64.ofNat n <<< 32).toNat = n * 2 ^ 32 := by
    rw [UInt64.toNat_shiftLeft, toNat_ofNat_of_lt h]
    simp only [Nat.shiftLeft_eq, UInt64.reduceToNat, Nat.reduceMod, Nat.reducePow]
    omega
  have hadd {high low : Nat} (hhigh : high < 2 ^ 32) (hlow : low < 2 ^ 32) :
      ((UInt64.ofNat high <<< 32) + UInt64.ofNat low).toNat = high * 2 ^ 32 + low := by
    rw [UInt64.toNat_add, hshift hhigh, toNat_ofNat_of_lt hlow]
    omega
  have hlt : UInt64.ofNat rep0 < UInt64.ofNat rep1 ↔ rep0 < rep1 := by
    rw [UInt64.lt_iff_toNat_lt, toNat_ofNat_of_lt h0, toNat_ofNat_of_lt h1]
  rw [clusterid]
  by_cases h : rep0 < rep1
  · rw [if_pos (hlt.mpr h), hadd h1 h0, Nat.max_eq_right (Nat.le_of_lt h),
      Nat.min_eq_left (Nat.le_of_lt h)]
  · have hle := Nat.le_of_not_lt h
    rw [if_neg (mt hlt.mp h), hadd h0 h1, Nat.max_eq_left hle, Nat.min_eq_right hle]

/-- **The number is the unordered pair.** -/
theorem clusterid_eq_iff {a b c d : Nat} (ha : a < 2 ^ 32) (hb : b < 2 ^ 32) (hc : c < 2 ^ 32)
    (hd : d < 2 ^ 32) :
    clusterid (UInt64.ofNat a) (UInt64.ofNat b) = clusterid (UInt64.ofNat c) (UInt64.ofNat d) ↔
      a = c ∧ b = d ∨ a = d ∧ b = c := by
  rw [← UInt64.toNat_inj, toNat_clusterid ha hb, toNat_clusterid hc hd]
  omega

/-! ## 3. Boundary points -/

/-- An inner pixel and a neighbour of the opposite colour. -/
structure Boundary (im : ImageU8) (s : Stroke) : Prop where
  inner : im.Inner s.x s.y
  notFirst : 1 ≤ s.y
  colour : im.pixel s.x s.y ≠ 127
  direction : (s.dx, s.dy) ∈ CONN
  opposite : (im.pixel s.x s.y).toNat + (im.pixel s.far.1 s.far.2).toNat = 255

def pointOf (im : ImageU8) (s : Stroke) : Pt :=
  point s.x s.y (im.pixel s.x s.y) (im.pixel s.far.1 s.far.2) s.dx s.dy

/-- The boundary points next to a pixel, in the order in which they are looked for. -/
def pixelEdges (im : ImageU8) (x y : Nat) : List Stroke :=
  if im.pixel x y = 127 then []
  else (CONN.map fun d => (⟨x, y, d.1, d.2⟩ : Stroke)).filter fun s =>
    (im.pixel x y).toNat + (im.pixel s.far.1 s.far.2).toNat = 255

/-- All boundary points, in the order of the scan. -/
def edges (im : ImageU8) : List Stroke :=
  (List.range' 1 (im.height - 2)).flatMap fun y =>
    (List.range' 1 (im.width - 2)).flatMap fun x => im.pixelEdges x y

theorem mem_pixelEdges {im : ImageU8} {x y : Nat} {s : Stroke} :
    s ∈ im.pixelEdges x y ↔ s.x = x ∧ s.y = y ∧ im.pixel x y ≠ 127 ∧ (s.dx, s.dy) ∈ CONN ∧
      (im.pixel x y).toNat + (im.pixel s.far.1 s.far.2).toNat = 255 := by
  rw [pixelEdges]
  by_cases hgray : im.pixel x y = 127
  · simp [hgray]
  · rw [if_neg hgray, List.mem_filter, List.mem_map, decide_eq_true_eq]
    constructor
    · rintro ⟨⟨d, hd, rfl⟩, hsum⟩
      exact ⟨rfl, rfl, hgray, hd, hsum⟩
    · rintro ⟨rfl, rfl, -, hd, hsum⟩
      exact ⟨⟨_, hd, rfl⟩, hsum⟩

theorem mem_edges {im : ImageU8} {s : Stroke} : s ∈ im.edges ↔ im.Boundary s := by
  simp only [edges, List.mem_flatMap, List.mem_range'_1]
  constructor
  · rintro ⟨y, ⟨hfirst, hy⟩, x, ⟨hleft, hx⟩, hs⟩
    obtain ⟨rfl, rfl, hgray, hdirection, hsum⟩ := mem_pixelEdges.mp hs
    exact ⟨⟨hleft, by omega, by omega⟩, hfirst, hgray, hdirection, hsum⟩
  · rintro ⟨⟨hleft, hright, hbelow⟩, hfirst, hgray, hdirection, hsum⟩
    exact ⟨s.y, ⟨hfirst, by omega⟩, s.x, ⟨hleft, by omega⟩,
      mem_pixelEdges.mpr ⟨rfl, rfl, hgray, hdirection, hsum⟩⟩

theorem conn_far {im : ImageU8} {s : Stroke} (hinner : im.Inner s.x s.y)
    (hdirection : (s.dx, s.dy) ∈ CONN) :
    im.InImage s.far ∧ (s.far.1 : Int) = s.x + s.dx ∧ (s.far.2 : Int) = s.y + s.dy := by
  obtain ⟨hleft, hright, hbelow⟩ := hinner
  have hbounds : 0 ≤ s.x + s.dx ∧ s.x + s.dx < im.width ∧ 0 ≤ s.y + s.dy ∧
      s.y + s.dy < im.height := by
    simp only [CONN, List.mem_cons, Prod.mk.injEq, List.not_mem_nil, or_false] at hdirection
    omega
  obtain ⟨hx, hx', hy, hy'⟩ := hbounds
  refine ⟨⟨?_, ?_⟩, Int.toNat_of_nonneg hx, Int.toNat_of_nonneg hy⟩
  · exact (Int.toNat_lt hx).mpr hx'
  · exact (Int.toNat_lt hy).mpr hy'

/-! ## 4. The loops collect the boundary points -/

section Collect

variable {im : ImageU8} {forest : SizedForest (Fin (im.width * im.height + 1))}

/-- The representative of a pixel. -/
def rep (forest : SizedForest (Fin (im.width * im.height + 1))) (p : Nat × Nat) : Nat :=
  (forest.root (im.pixelId p)).val

/-- A boundary point under the number of its cluster. -/
def item (forest : SizedForest (Fin (im.width * im.height + 1))) (s : Stroke) : UInt64 × Pt :=
  (clusterid (UInt64.ofNat (rep forest (s.x, s.y))) (UInt64.ofNat (rep forest s.far)),
    im.pointOf s)

/-- The union-find has the roots of the forest, and the table has the items. -/
structure Collected (forest : SizedForest (Fin (im.width * im.height + 1)))
    (items : List (UInt64 × Pt)) (state : UnionFind × ClusterMap) : Prop where
  roots : ∃ now : SizedForest (Fin (im.width * im.height + 1)), state.1.Models now ∧
    ∀ i, now.root i = forest.root i
  length : state.2.length = im.nclustermap
  grouped : Grouped im.clustermap_bucket items state.2

/-- A query changes neither the roots nor the table. -/
theorem Collected.getRepresentative {items : List (UInt64 × Pt)} {state : UnionFind × ClusterMap}
    (h : Collected forest items state) {p : Nat × Nat} (hp : im.InImage p) :
    ∃ uf, state.1.getRepresentative (p.2 * im.width + p.1) = .ok (uf, rep forest p) ∧
      Collected forest items (uf, state.2) := by
  obtain ⟨now, hmodels, hroots⟩ := h.roots
  obtain ⟨uf, next, hget, hnext, hsame⟩ :=
    UnionFind.getRepresentative_spec hmodels (im.pixelId p)
  rw [val_pixelId hp, hroots] at hget
  exact ⟨uf, hget, ⟨next, hnext, fun i => (hsame i).trans (hroots i)⟩, h.length, h.grouped⟩

theorem nclustermap_pos (hinner : ∃ x y, im.Inner x y) : 0 < im.nclustermap := by
  obtain ⟨x, y, hleft, hright, hbelow⟩ := hinner
  have hwidth : 1 ≤ im.width := by omega
  have hheight : 1 ≤ im.height := by omega
  have hpos : 1 * 1 ≤ im.width * im.height := Nat.mul_le_mul hwidth hheight
  rw [nclustermap, Nat.mul_assoc]
  omega

/-- What one `DO_CONN` adds. -/
def added (im : ImageU8) (forest : SizedForest (Fin (im.width * im.height + 1))) (x y : Nat)
    (d : Int × Int) : List (UInt64 × Pt) :=
  if (im.pixel x y).toNat +
      (im.pixel (⟨x, y, d.1, d.2⟩ : Stroke).far.1 (⟨x, y, d.1, d.2⟩ : Stroke).far.2).toNat = 255
  then [item forest ⟨x, y, d.1, d.2⟩]
  else []

theorem doConn_spec {x y : Nat} (hinner : im.Inner x y) {d : Int × Int} (hd : d ∈ CONN)
    {items : List (UInt64 × Pt)} {state : UnionFind × ClusterMap}
    (h : Collected forest items state) :
    ∃ after, im.doConn x y (im.pixel x y) (rep forest (x, y)) state d = .ok after ∧
      Collected forest (items ++ added im forest x y d) after := by
  obtain ⟨uf, clustermap⟩ := state
  obtain ⟨hfar, hx, hy⟩ := conn_far (s := ⟨x, y, d.1, d.2⟩) hinner hd
  have hindex (width : Nat) : (y * width + d.2 * width + x + d.1 : Int) =
      (((⟨x, y, d.1, d.2⟩ : Stroke).far.2 * width + (⟨x, y, d.1, d.2⟩ : Stroke).far.1 : Nat) :
        Int) := by
    push_cast
    rw [hx, hy]
    ring
  have hload : loadInt im.buf (y * im.stride + d.2 * im.stride + x + d.1) =
      .ok (im.pixel (⟨x, y, d.1, d.2⟩ : Stroke).far.1 (⟨x, y, d.1, d.2⟩ : Stroke).far.2) := by
    rw [hindex, loadInt, if_neg (Int.not_lt.mpr (Int.natCast_nonneg _)), Int.toNat_natCast]
    exact load_pixel hfar.x hfar.y
  rw [doConn]
  dsimp only
  rw [hload, ok_bind, added]
  split
  · next hsum =>
    obtain ⟨next, hget, hcollected⟩ := h.getRepresentative hfar
    have hhash : im.clustermap_bucket (item forest ⟨x, y, d.1, d.2⟩).1 < clustermap.length := by
      rw [h.length]
      exact Nat.mod_lt _ (nclustermap_pos ⟨x, y, hinner⟩)
    obtain ⟨after, hpush, hlength, hgrouped⟩ := hcollected.grouped.push _ hhash
    rw [hindex, Int.toNat_natCast, hget, ok_bind]
    dsimp only
    refine ⟨(next, after), ?_, hcollected.roots, hlength.trans h.length, hgrouped⟩
    exact bind_eq_ok.mpr ⟨after, hpush, rfl⟩
  · exact ⟨(uf, clustermap), rfl, by rwa [List.append_nil]⟩

theorem flatMap_added (x y : Nat) (hgray : im.pixel x y ≠ 127) :
    CONN.flatMap (added im forest x y) = (im.pixelEdges x y).map (item forest) := by
  rw [pixelEdges, if_neg hgray]
  generalize CONN = ds
  induction ds with
  | nil => rfl
  | cons d ds ih =>
      rw [List.flatMap_cons, ih, List.map_cons, List.filter_cons, added]
      simp only [decide_eq_true_eq]
      split
      · rfl
      · rfl

theorem connPixel_spec {x y : Nat} (hinner : im.Inner x y) {items : List (UInt64 × Pt)}
    {state : UnionFind × ClusterMap} (h : Collected forest items state) :
    ∃ after, im.connPixel y state x = .ok after ∧
      Collected forest (items ++ (im.pixelEdges x y).map (item forest)) after := by
  rw [connPixel, load_pixel (Nat.lt_of_succ_lt hinner.right) (Nat.lt_of_succ_lt hinner.below),
    ok_bind]
  by_cases hgray : im.pixel x y = 127
  · rw [if_pos hgray, pixelEdges, if_pos hgray]
    exact ⟨state, rfl, by rwa [List.map_nil, List.append_nil]⟩
  · have hp : im.InImage (x, y) :=
      ⟨Nat.lt_of_succ_lt hinner.right, Nat.lt_of_succ_lt hinner.below⟩
    obtain ⟨uf, hget, hcollected⟩ := h.getRepresentative hp
    rw [if_neg hgray, hget, ok_bind, ← flatMap_added x y hgray]
    exact foldlM_collects (Collected forest) (fun d hd _ _ hstate => doConn_spec hinner hd hstate)
      hcollected

theorem edgeClusters_spec {uf : UnionFind} (huf : uf.Models forest) :
    ∃ table : ClusterMap, im.edgeClusters uf = .ok (table.flatten.map Prod.snd) ∧
      table.length = im.nclustermap ∧
      Grouped im.clustermap_bucket (im.edges.map (item forest)) table := by
  have hstart : Collected forest [] (uf, (List.replicate im.nclustermap [] : ClusterMap)) :=
    ⟨⟨forest, huf, fun _ => rfl⟩, List.length_replicate, grouped_empty _ _⟩
  have hlines : ∀ y ∈ List.range' 1 (im.height - 2), ∀ items state,
      Collected forest items state → ∃ after, im.connLine state y = .ok after ∧
        Collected forest (items ++ (List.range' 1 (im.width - 2)).flatMap
          fun x => (im.pixelEdges x y).map (item forest)) after := by
    intro y hy items state hstate
    rw [List.mem_range'_1] at hy
    refine foldlM_collects (Collected forest) (fun x hx _ _ hstate => ?_) hstate
    rw [List.mem_range'_1] at hx
    exact connPixel_spec ⟨hx.1, by omega, by omega⟩ hstate
  obtain ⟨⟨after, table⟩, hloop, hcollected⟩ :=
    foldlM_collects (Collected forest) hlines hstart
  refine ⟨table, ?_, hcollected.length, ?_⟩
  · rw [edgeClusters, hloop]
    rfl
  · have hitems : im.edges.map (item forest) = [] ++ (List.range' 1 (im.height - 2)).flatMap
        fun y => (List.range' 1 (im.width - 2)).flatMap
          fun x => (im.pixelEdges x y).map (item forest) := by
      rw [edges, List.nil_append, List.map_flatMap]
      simp only [List.map_flatMap]
    rw [hitems]
    exact hcollected.grouped

end Collect

/-! ## 5. Clusters and components -/

/-- The darker one of the two pixels. -/
def dark (im : ImageU8) (s : Stroke) : Nat × Nat :=
  if (im.pixel s.x s.y).toNat < 128 then (s.x, s.y) else s.far

/-- The lighter one. -/
def light (im : ImageU8) (s : Stroke) : Nat × Nat :=
  if (im.pixel s.x s.y).toNat < 128 then s.far else (s.x, s.y)

/-- The points lie between the same dark and the same light component. -/
def SameBoundary (im : ImageU8) (s t : Stroke) : Prop :=
  im.Together (fun y => y + 1 < im.height) (im.dark s) (im.dark t) ∧
    im.Together (fun y => y + 1 < im.height) (im.light s) (im.light t)

theorem Boundary.inImage {im : ImageU8} {s : Stroke} (h : im.Boundary s) :
    im.InImage (s.x, s.y) ∧ im.InImage s.far :=
  ⟨⟨Nat.lt_of_succ_lt h.inner.right, Nat.lt_of_succ_lt h.inner.below⟩,
    (conn_far h.inner h.direction).1⟩

theorem Together.pixel_eq {im : ImageU8} {lines : Nat → Prop} {p q : Nat × Nat}
    (h : im.Together lines p q) : im.pixel p.1 p.2 = im.pixel q.1 q.2 :=
  eq_of_together (f := fun p => im.pixel p.1 p.2) (fun _ _ htouches => htouches.same.symm) h

/-- The two numbers agree exactly on the same boundary. -/
theorem sameBoundary_iff {im : ImageU8} {s t : Stroke} (hs : im.Boundary s)
    (ht : im.Boundary t) {rep : Nat × Nat → Nat}
    (hrep : ∀ p q, im.InImage p → im.InImage q →
      (rep p = rep q ↔ im.Together (fun y => y + 1 < im.height) p q)) :
    (rep (s.x, s.y) = rep (t.x, t.y) ∧ rep s.far = rep t.far ∨
      rep (s.x, s.y) = rep t.far ∧ rep s.far = rep (t.x, t.y)) ↔ im.SameBoundary s t := by
  obtain ⟨hsnear, hsfar⟩ := hs.inImage
  obtain ⟨htnear, htfar⟩ := ht.inImage
  have hssum := hs.opposite
  have htsum := ht.opposite
  rw [hrep _ _ hsnear htnear, hrep _ _ hsfar htfar, hrep _ _ hsnear htfar,
    hrep _ _ hsfar htnear, SameBoundary, dark, dark, light, light]
  have hvalue {p q : Nat × Nat}
      (h : im.Together (fun y => y + 1 < im.height) p q) :
      (im.pixel p.1 p.2).toNat = (im.pixel q.1 q.2).toNat := by rw [h.pixel_eq]
  -- of the two ways to match the pixels, the colours leave one
  by_cases hsdark : (im.pixel s.x s.y).toNat < 128
  · by_cases htdark : (im.pixel t.x t.y).toNat < 128
    · rw [if_pos hsdark, if_pos htdark, if_pos hsdark, if_pos htdark]
      refine or_iff_left fun ⟨hcross, _⟩ => ?_
      have hcontra := hvalue hcross
      dsimp only at hcontra
      omega
    · rw [if_pos hsdark, if_neg htdark, if_pos hsdark, if_neg htdark]
      refine or_iff_right fun ⟨hcross, _⟩ => ?_
      have hcontra := hvalue hcross
      dsimp only at hcontra
      omega
  · by_cases htdark : (im.pixel t.x t.y).toNat < 128
    · rw [if_neg hsdark, if_pos htdark, if_neg hsdark, if_pos htdark,
        and_comm (a := im.Together _ (s.x, s.y) t.far)]
      refine or_iff_right fun ⟨hcross, _⟩ => ?_
      have hcontra := hvalue hcross
      dsimp only at hcontra
      omega
    · rw [if_neg hsdark, if_neg htdark, if_neg hsdark, if_neg htdark,
        and_comm (a := im.Together _ (s.x, s.y) (t.x, t.y))]
      refine or_iff_left fun ⟨hcross, _⟩ => ?_
      have hcontra := hvalue hcross
      dsimp only at hcontra
      omega

/-- The values of a mapped list under a key. -/
theorem valuesOf_map {α Key Value : Type} [DecidableEq Key] (f : α → Key × Value) (xs : List α)
    (key : Key) :
    valuesOf (xs.map f) key = (xs.filter fun x => (f x).1 = key).map fun x => (f x).2 := by
  induction xs with
  | nil => rfl
  | cons x xs ih =>
      rw [valuesOf] at ih ⊢
      rw [List.map_cons, List.filterMap_cons, List.filter_cons]
      by_cases hkey : (f x).1 = key
      · simp [hkey, ih]
      · simp [hkey, ih]

open Classical in
/-- The points of one boundary, in the order of the scan. -/
noncomputable def boundaryPoints (im : ImageU8) (s : Stroke) : List Pt :=
  (im.edges.filter fun t => im.SameBoundary s t).map im.pointOf

/-- One boundary point for each entry. -/
theorem exists_leaders {im : ImageU8} {forest : SizedForest (Fin (im.width * im.height + 1))}
    {entries : Chain UInt64 Pt} (h : ∀ entry ∈ entries, ∃ s, im.Boundary s ∧
      (item forest s).1 = entry.1 ∧ im.boundaryPoints s = entry.2) :
    ∃ leaders : List Stroke, (∀ s ∈ leaders, im.Boundary s) ∧
      leaders.map (fun s => (item forest s).1) = entries.map Prod.fst ∧
      leaders.map im.boundaryPoints = entries.map Prod.snd := by
  induction entries with
  | nil => exact ⟨[], by simp, rfl, rfl⟩
  | cons entry entries ih =>
      rw [List.forall_mem_cons] at h
      obtain ⟨s, hs, hkey, hpoints⟩ := h.1
      obtain ⟨leaders, hleaders, hkeys, hall⟩ := ih h.2
      refine ⟨s :: leaders, List.forall_mem_cons.mpr ⟨hs, hleaders⟩, ?_, ?_⟩
      · rw [List.map_cons, List.map_cons, hkey, hkeys]
      · rw [List.map_cons, List.map_cons, hpoints, hall]

/-- **One cluster for each boundary**: of the boundary points there are some, no two on one
    boundary and one on every boundary, such that the clusters are theirs. -/
theorem clusters_spec (im : ImageU8) :
    ∃ leaders : List Stroke, (∀ s ∈ leaders, im.Boundary s) ∧
      (∀ s, im.Boundary s → ∃ leader ∈ leaders, im.SameBoundary leader s) ∧
      leaders.Pairwise (fun s t => ¬ im.SameBoundary s t) ∧
      im.clusters = .ok (leaders.map im.boundaryPoints) := by
  obtain ⟨uf, strokes, hcomponents, hcovers, forest, hmodels, hrepresents⟩ := components_holds im
  obtain ⟨table, htable, hlength, hgrouped⟩ := edgeClusters_spec hmodels
  have hclusters : im.clusters = .ok (table.flatten.map Prod.snd) := by
    rw [clusters, hcomponents, ok_bind, htable]
  have hpixels : im.width * im.height < 2 ^ 32 - 1 :=
    Nat.lt_trans (Nat.mul_lt_mul'' im.width_lt im.height_lt) (by decide)
  have hsmall (p : Nat × Nat) : rep forest p < 2 ^ 32 := by
    have hlt := (forest.root (im.pixelId p)).isLt
    rw [rep]
    omega
  have hrep (p q : Nat × Nat) (hp : im.InImage p) (hq : im.InImage q) :
      rep forest p = rep forest q ↔ im.Together (fun y => y + 1 < im.height) p q := by
    rw [← hcovers.linked_iff hp hq, ← hrepresents]
    exact Fin.val_inj
  have hitem {s t : Stroke} (hs : im.Boundary s) (ht : im.Boundary t) :
      (item forest s).1 = (item forest t).1 ↔ im.SameBoundary s t := by
    rw [← sameBoundary_iff hs ht hrep]
    exact clusterid_eq_iff (hsmall _) (hsmall _) (hsmall _) (hsmall _)
  rcases Nat.eq_zero_or_pos im.nclustermap with hnone | hpos
  · refine ⟨[], by simp, fun s hs => ?_, .nil, ?_⟩
    · have hpos := nclustermap_pos ⟨s.x, s.y, hs.inner⟩
      omega
    · rw [hclusters, List.eq_nil_of_length_eq_zero (hlength.trans hnone)]
      rfl
  · have hgroups := hgrouped.flatten fun key => by
      rw [hlength]
      exact Nat.mod_lt _ hpos
    have hvalues {s : Stroke} (hs : im.Boundary s) :
        valuesOf (im.edges.map (item forest)) (item forest s).1 = im.boundaryPoints s := by
      rw [valuesOf_map, boundaryPoints]
      apply congrArg (List.map im.pointOf)
      refine List.filter_congr fun t ht => decide_eq_decide.mpr ?_
      rw [eq_comm]
      exact hitem hs (mem_edges.mp ht)
    have hentries : ∀ entry ∈ table.flatten, ∃ s, im.Boundary s ∧
        (item forest s).1 = entry.1 ∧ im.boundaryPoints s = entry.2 := by
      rintro ⟨key, values⟩ hmem
      obtain ⟨-, rfl, hne⟩ := (hgroups.mem_iff _ _).mp hmem
      obtain ⟨other, hother, rfl⟩ := valuesOf_ne_nil_iff.mp hne
      obtain ⟨s, hs, rfl⟩ := List.mem_map.mp hother
      exact ⟨s, mem_edges.mp hs, rfl, (hvalues (mem_edges.mp hs)).symm⟩
    obtain ⟨leaders, hleaders, hkeys, hpoints⟩ := exists_leaders hentries
    refine ⟨leaders, hleaders, fun s hs => ?_, ?_, by rw [hclusters, hpoints]⟩
    · have hne : valuesOf (im.edges.map (item forest)) (item forest s).1 ≠ [] :=
        valuesOf_ne_nil_iff.mpr ⟨_, List.mem_map_of_mem (mem_edges.mpr hs), rfl⟩
      have hkey := List.mem_map_of_mem (f := Prod.fst)
        ((hgroups.mem_iff _ _).mpr ⟨trivial, rfl, hne⟩)
      rw [← hkeys] at hkey
      obtain ⟨leader, hleader, hsame⟩ := List.mem_map.mp hkey
      exact ⟨leader, hleader, (hitem (hleaders leader hleader) hs).mp hsame⟩
    · have hnodup := hgroups.nodup
      rw [← hkeys] at hnodup
      refine (List.pairwise_map.mp hnodup).imp_of_mem fun hs ht hne hsame => hne ?_
      exact (hitem (hleaders _ hs) (hleaders _ ht)).mpr hsame

/-- A black pixel in a white image. -/
def spot : ImageU8 where
  width := 5
  height := 5
  stride := 5
  buf := (List.replicate 25 255).set 12 0
  length_buf := by rw [List.length_set, List.length_replicate]
  width_le := Nat.le_refl 5
  width_lt := by decide
  height_lt := by decide
  size_lt := by decide

theorem clusters_spec_spot : ∃ leaders : List Stroke,
    spot.clusters = .ok (leaders.map spot.boundaryPoints) := by
  obtain ⟨leaders, -, -, -, hclusters⟩ := clusters_spec spot
  exact ⟨leaders, hclusters⟩

example : spot.clusters.toOption.map (List.map List.length) = some [8] := by decide +kernel

end ImageU8

end Lame
