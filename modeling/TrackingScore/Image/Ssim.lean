import TrackingScore.Error
import TrackingScore.Image.BlockSum
import TrackingScore.Image.Luma
import TrackingScore.Image.SummedArea

/-!
Structural similarity of two images of one size, over all square windows that lie inside them. The
score of a window compares means, variances and the covariance of the two images there; the score
of the images is the mean over windows and channels.
-/

namespace TrackingScore

open Scalar

structure ImageSimilarity (α : Type) where
  score : RgbImage → RgbImage → Except (EvalError α) α
  map : RgbImage → RgbImage → Except (EvalError α) (Raster α)

structure Ssim (α : Type) where
  /-- Side of the window; it shrinks to an odd size that fits the images. -/
  windowSize : Nat
  k1 : α
  k2 : α
  dataRange : α
  deriving Repr, DecidableEq

namespace Ssim

variable {α : Type} [Scalar α] {h w : Nat}

def default : Ssim α := ⟨7, 0.01, 0.03, 255.0⟩

/-- The largest odd window that fits, unless it is too small for a variance. -/
def effectiveWindow? (s : Ssim α) (h w : Nat) : Option Nat :=
  let window := min (min s.windowSize h) w
  if window < 3 then none else some (if window % 2 = 0 then window - 1 else window)

omit [Scalar α] in
theorem effectiveWindow?_le {s : Ssim α} {h w n : Nat} (hn : s.effectiveWindow? h w = some n) :
    0 < n ∧ n ≤ h ∧ n ≤ w := by
  simp only [effectiveWindow?] at hn
  split at hn
  · simp at hn
  · have := Option.some.inj hn
    split at this <;> omega

/-- Sums over a window: of two images, of their squares and of their product. -/
structure Moments (α : Type) where
  x : α
  y : α
  xx : α
  yy : α
  xy : α

def localScore (s : Ssim α) (count : α) (sums : Moments α) : α :=
  let norm := count / (count - 1.0)
  let c1 := (s.k1 * s.dataRange) * (s.k1 * s.dataRange)
  let c2 := (s.k2 * s.dataRange) * (s.k2 * s.dataRange)
  let ux := sums.x / count
  let uy := sums.y / count
  let uxx := sums.xx / count
  let uyy := sums.yy / count
  let uxy := sums.xy / count
  let vx := norm * (uxx - ux * ux)
  let vy := norm * (uyy - uy * uy)
  let vxy := norm * (uxy - ux * uy)
  let numerator := (2.0 * ux * uy + c1) * (2.0 * vxy + c2)
  let denominator := (ux * ux + uy * uy + c1) * (vx + vy + c2)
  numerator / denominator

/-- Similarity of one channel at every place of the window. -/
def channelMap (s : Ssim α) (x y : Grid α h w) (window : Nat) (hh : window ≤ h) (hw : window ≤ w) :
    Grid α (h - window + 1) (w - window + 1) :=
  let tableX := summedArea x
  let tableY := summedArea y
  let tableXX := summedArea (Grid.ofFn fun r c => x[r][c] * x[r][c])
  let tableYY := summedArea (Grid.ofFn fun r c => y[r][c] * y[r][c])
  let tableXY := summedArea (Grid.ofFn fun r c => x[r][c] * y[r][c])
  let count : α := ofNat (window * window)
  Grid.ofFn fun r c =>
    have hr : r.val + window ≤ h := by have := r.isLt; omega
    have hc : c.val + window ≤ w := by have := c.isLt; omega
    s.localScore count
      ⟨boxSum tableX r c window hr hc, boxSum tableY r c window hr hc,
        boxSum tableXX r c window hr hc, boxSum tableYY r c window hr hc,
        boxSum tableXY r c window hr hc⟩

def channel (part : Pixel → UInt8) (image : Grid Pixel h w) : Grid α h w :=
  Vector.map (Vector.map fun p => byteScalar (part p)) image

def pixelMap (s : Ssim α) (lhs rhs : Grid Pixel h w) (window : Nat) (hh : window ≤ h)
    (hw : window ≤ w) : Grid α (h - window + 1) (w - window + 1) :=
  let red := s.channelMap (channel (·.r) lhs) (channel (·.r) rhs) window hh hw
  let green := s.channelMap (channel (·.g) lhs) (channel (·.g) rhs) window hh hw
  let blue := s.channelMap (channel (·.b) lhs) (channel (·.b) rhs) window hh hw
  Grid.ofFn fun r c => (0.0 + red[r][c] + green[r][c] + blue[r][c]) / 3.0

def computeMap (s : Ssim α) (lhs rhs : RgbImage) : Except (EvalError α) (Raster α) :=
  if hsize : rhs.height = lhs.height ∧ rhs.width = lhs.width then
    match hwin : s.effectiveWindow? lhs.height lhs.width with
    | none => .error (.invalidParameter (.window s.windowSize lhs.width lhs.height))
    | some window =>
      have hle := effectiveWindow?_le hwin
      let right : Grid Pixel lhs.height lhs.width :=
        Grid.ofFn fun r c => rhs.cells[r.val][c.val]
      .ok ⟨_, _, s.pixelMap lhs.cells right window hle.2.1 hle.2.2⟩
  else .error (.invalidParameter (.imageSizes lhs.dimensions rhs.dimensions))

def columnMeans (map : Raster α) : List α :=
  (List.finRange map.width).map fun c =>
    map.cells.toList.foldl (fun sum row => sum + row[c]) 0.0 / ofNat map.height

/-- Mean of all entries, taken first over the columns. -/
def mapMean (map : Raster α) : α := blockSum (columnMeans map) / ofNat map.width

def compute (s : Ssim α) (lhs rhs : RgbImage) : Except (EvalError α) α :=
  (s.computeMap lhs rhs).map mapMean

def similarity (s : Ssim α) : ImageSimilarity α := ⟨s.compute, s.computeMap⟩

end Ssim
end TrackingScore
