import TrackingScore.Error
import TrackingScore.Image.BlockSum
import TrackingScore.Image.Features

/-!
Corners of an image by the Harris response, each described by the patch around it with the mean
taken out and the length made one. Places that keep a margin from every edge carry that fact with
them, so reading a patch never leaves the image.
-/

namespace TrackingScore

open Scalar

structure FeatureExtractor (ρ α : Type) where
  run : Raster ρ → Except (EvalError α) (Features ρ)

structure HarrisExtractor (ρ : Type) where
  maxFeatures : Nat
  sensitivity : ρ
  /-- Least response, relative to the strongest one. -/
  relativeThreshold : ρ
  patchRadius : Nat
  /-- Half side of the window in which only the strongest response survives. -/
  nmsRadius : Nat
  deriving Repr, DecidableEq

/-- A place at least `margin` cells away from every edge. -/
structure Spot (h w margin : Nat) where
  row : Nat
  col : Nat
  row_ge : margin ≤ row
  row_lt : row + margin < h
  col_ge : margin ≤ col
  col_lt : col + margin < w

def spots (h w margin : Nat) : List (Spot h w margin) :=
  (List.finRange h).flatMap fun r => (List.finRange w).filterMap fun c =>
    if hs : (margin ≤ r.val ∧ r.val + margin < h) ∧ margin ≤ c.val ∧ c.val + margin < w then
      some ⟨r.val, c.val, hs.1.1, hs.1.2, hs.2.1, hs.2.2⟩
    else none

def patchAt {β : Type} {h w margin : Nat} (cells : Grid β h w) (spot : Spot h w margin)
    (radius : Nat) (hr : radius ≤ margin) : List (List β) :=
  let offsets := List.finRange (2 * radius + 1)
  offsets.map fun (dr : Fin (2 * radius + 1)) => offsets.map fun (dc : Fin (2 * radius + 1)) =>
    have hrow : spot.row - radius + dr.val < h := by
      have := dr.isLt; have := spot.row_ge; have := spot.row_lt; omega
    have hcol : spot.col - radius + dc.val < w := by
      have := dc.isLt; have := spot.col_ge; have := spot.col_lt; omega
    cells[spot.row - radius + dr.val][spot.col - radius + dc.val]

variable {ρ : Type} [Scalar ρ] {h w : Nat}

def gradient (luma : Grid ρ h w) (row col : Nat) (hr : 1 ≤ row ∧ row + 1 < h)
    (hc : 1 ≤ col ∧ col + 1 < w) : ρ × ρ :=
  ((luma[row][col + 1] - luma[row][col - 1]) * 0.5,
    (luma[row + 1][col] - luma[row - 1][col]) * 0.5)

/-- A product of the two changes at every place, zero on the edges. -/
def gradientProduct (product : ρ → ρ → ρ) (luma : Grid ρ h w) : Grid ρ h w :=
  Grid.ofFn fun r c =>
    if hb : (1 ≤ r.val ∧ r.val + 1 < h) ∧ 1 ≤ c.val ∧ c.val + 1 < w then
      let (gx, gy) := gradient luma r.val c.val hb.1 hb.2
      product gx gy
    else 0.0

namespace HarrisExtractor

def default : HarrisExtractor ρ := ⟨500, 0.04, 0.01, 4, 3⟩

def descriptorSize (e : HarrisExtractor ρ) : Nat :=
  (2 * e.patchRadius + 1) * (2 * e.patchRadius + 1)

def cornerness (e : HarrisExtractor ρ) (sxx syy sxy : ρ) : ρ :=
  let trace := sxx + syy
  sxx * syy - sxy * sxy - e.sensitivity * trace * trace

/-- Response at every place, zero at the two cells next to each edge and in images of fewer than
five rows or columns. -/
def response (e : HarrisExtractor ρ) (luma : Grid ρ h w) : Grid ρ h w :=
  let gxx := gradientProduct (fun gx _ => gx * gx) luma
  let gyy := gradientProduct (fun _ gy => gy * gy) luma
  let gxy := gradientProduct (fun gx gy => gx * gy) luma
  Grid.ofFn fun r c =>
    if hb : (2 ≤ r.val ∧ r.val + 2 < h) ∧ 2 ≤ c.val ∧ c.val + 2 < w then
      let spot : Spot h w 2 := ⟨r.val, c.val, hb.1.1, hb.1.2, hb.2.1, hb.2.2⟩
      e.cornerness (windowSum (patchAt gxx spot 1 (by omega)))
        (windowSum (patchAt gyy spot 1 (by omega))) (windowSum (patchAt gxy spot 1 (by omega)))
    else 0.0

/-- Whether a place beats another one: by a greater response, or by standing first among equals. -/
def beats (value : ρ) (row col : Nat) (other : ρ) (otherRow otherCol : Nat) : Bool :=
  less other value ||
    (same value other && (decide (row < otherRow) || (row = otherRow && decide (col < otherCol))))

def around (center radius limit : Nat) : List Nat :=
  List.range' (center - radius) (min (center + radius + 1) limit - (center - radius))

/-- Whether no place of the window around beats this one. -/
def isLocalMax (e : HarrisExtractor ρ) (response : Grid ρ h w) (row col : Nat) (value : ρ) : Bool :=
  (around row e.nmsRadius h).all fun r => (around col e.nmsRadius w).all fun c =>
    match response[r]? with
    | none => true
    | some cells =>
      match cells[c]? with
      | none => true
      | some other => !beats other r c value row col

def strongest (response : Grid ρ h w) : ρ :=
  response.toCells.foldl (fun best x => if less best x then x else best) 0.0

def border (e : HarrisExtractor ρ) : Nat := max e.patchRadius 2

structure Candidate (ρ : Type) (h w margin : Nat) where
  spot : Spot h w margin
  response : ρ

/-- Places whose response is above the threshold and unbeaten in its window, row by row. -/
def candidates (e : HarrisExtractor ρ) (response : Grid ρ h w) (threshold : ρ) :
    List (Candidate ρ h w e.border) :=
  (spots h w e.border).filterMap fun (spot : Spot h w e.border) =>
    have hr : spot.row < h := by have := spot.row_lt; omega
    have hc : spot.col < w := by have := spot.col_lt; omega
    let value := response[spot.row][spot.col]
    if less threshold value && e.isLocalMax response spot.row spot.col value then
      some ⟨spot, value⟩
    else none

def keep (e : HarrisExtractor ρ) (candidates : List (Candidate ρ h w e.border)) :
    List (Candidate ρ h w e.border) :=
  (candidates.mergeSort fun a b => sortsBefore b.response a.response).take e.maxFeatures

/-- A patch with its mean taken out and its length made one; a flat patch becomes zero. -/
def normalizePatch (width : Nat) (rows : List (List ρ)) : List ρ :=
  let cells := rows.flatten
  let mean := windowSumIn width rows / ofNat cells.length
  let centered := cells.map (· - mean)
  let norm := sqrt (total (centered.map fun v => v * v))
  if less 1e-6 norm then centered.map (· / norm) else centered.map fun _ => 0.0

def describe (e : HarrisExtractor ρ) (luma : Grid ρ h w) (candidate : Candidate ρ h w e.border) :
    List ρ :=
  normalizePatch w (patchAt luma candidate.spot e.patchRadius (Nat.le_max_left _ _))

theorem length_normalizePatch (width : Nat) (rows : List (List ρ)) :
    (normalizePatch width rows).length = rows.flatten.length := by
  simp only [normalizePatch]
  split <;> simp only [List.length_map]

theorem length_describe (e : HarrisExtractor ρ) (luma : Grid ρ h w)
    (candidate : Candidate ρ h w e.border) :
    (e.describe luma candidate).length = e.descriptorSize := by
  simp [describe, length_normalizePatch, patchAt, descriptorSize, List.length_flatten,
    Function.comp_def, List.map_const']

def featuresOf (e : HarrisExtractor ρ) (luma : Grid ρ h w)
    (candidates : List (Candidate ρ h w e.border)) : Features ρ where
  keypoints := candidates.map fun c => ⟨c.spot.row, c.spot.col, c.response⟩
  descriptors := ⟨e.descriptorSize, candidates.map (e.describe luma), by
    simp only [List.mem_map]
    rintro _ ⟨c, -, rfl⟩
    exact e.length_describe luma c⟩

/-- Detects and describes; images too small for the border have no features, and neither have
images whose strongest response is zero. -/
def features (e : HarrisExtractor ρ) (luma : Raster ρ) : Features ρ :=
  if luma.height ≤ 2 * e.border || luma.width ≤ 2 * e.border then
    ⟨[], .empty e.descriptorSize⟩
  else
    let response := e.response luma.cells
    let top := strongest response
    if atMost top 0.0 then ⟨[], .empty e.descriptorSize⟩
    else e.featuresOf luma.cells (e.keep (e.candidates response (top * e.relativeThreshold)))

/-- An array holds rows of descriptors, or none of them, only if a row is shorter than half the numbers
of a word. -/
def Addressable (e : HarrisExtractor ρ) : Prop := e.descriptorSize < 9223372036854775808

instance (e : HarrisExtractor ρ) : Decidable e.Addressable := inferInstanceAs (Decidable (_ < _))

def extractor (α : Type) (e : HarrisExtractor ρ) (_ : e.Addressable) : FeatureExtractor ρ α :=
  ⟨fun luma => .ok (e.features luma)⟩

/-- There is none for descriptors that no array holds, not even an empty one. -/
def extractor? (α : Type) (e : HarrisExtractor ρ) : Option (FeatureExtractor ρ α) :=
  if h : e.Addressable then some (e.extractor α h) else none

def detect? (α : Type) (e : HarrisExtractor ρ) (luma : Raster ρ) :
    Option (Except (EvalError α) (Features ρ)) :=
  (e.extractor? α).map fun extractor => extractor.run luma

theorem extractor?_of_addressable {α : Type} {e : HarrisExtractor ρ} (h : e.Addressable) :
    e.extractor? α = some (e.extractor α h) :=
  dif_pos h

theorem extractor?_eq_none_iff {α : Type} {e : HarrisExtractor ρ} :
    e.extractor? α = none ↔ ¬ e.Addressable := by
  by_cases h : e.Addressable <;> simp [extractor?, h]

theorem detect?_eq {α : Type} (e : HarrisExtractor ρ) (luma : Raster ρ) :
    e.detect? α luma = if e.Addressable then some (.ok (e.features luma)) else none := by
  by_cases h : e.Addressable
  · rw [detect?, extractor?_of_addressable h, if_pos h]
    rfl
  · rw [detect?, extractor?_eq_none_iff.2 h, if_neg h]
    rfl

end HarrisExtractor
end TrackingScore
