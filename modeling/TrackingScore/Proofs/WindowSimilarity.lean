import Mathlib.Algebra.BigOperators.Field
import TrackingScore.Image.Ssim
import TrackingScore.Proofs.Exact.BoxSum
import TrackingScore.Proofs.Sample

/-!
The structural similarity that the summed-area tables give is the one of the definition. Every
window is scored by the means, sample variances and sample covariance of its own pixels, and the
score of two images is the mean over all windows.
-/

namespace TrackingScore

open Finset Sample

variable {h w : ℕ}

section windows

def Grid.get? {β : Type} (g : Grid β h w) (r c : ℕ) : Option β := g[r]?.bind fun row => row[c]?

theorem Grid.get?_eq {β : Type} (g : Grid β h w) (r c : ℕ) :
    g.get? r c = if hrc : r < h ∧ c < w then some g[r][c] else none := by
  by_cases hr : r < h
  · by_cases hc : c < w <;> simp [Grid.get?, hr, hc]
  · simp [Grid.get?, hr]

def Grid.cell {β : Type} (g : Grid β h w) (p : Fin h × Fin w) : β := g[p.1][p.2]

theorem window_le {r n h : ℕ} (hn : n ≤ h) (hr : r < h - n + 1) : r + n ≤ h := by omega

noncomputable def Pixel.level (p : Pixel) (k : Fin 3) : ℝ := (![p.r, p.g, p.b] k).toNat

noncomputable def Grid.levels (image : Grid Pixel h w) (k : Fin 3) (r c n : ℕ) (hr : r + n ≤ h)
    (hc : c + n ≤ w) : Fin n × Fin n → ℝ :=
  fun p => (image.block r c n hr hc p).level k

end windows

namespace Ssim

variable {ι : Type} [Fintype ι]

/-- The similarity of two samples, by its definition. -/
noncomputable def similarityOf (s : Ssim ℝ) (f g : ι → ℝ) : ℝ :=
  ((2 • (mean f * mean g) + (s.k1 * s.dataRange) ^ 2) *
      (2 • covariance f g + (s.k2 * s.dataRange) ^ 2)) /
    ((mean f ^ 2 + mean g ^ 2 + (s.k1 * s.dataRange) ^ 2) *
      (covariance f f + covariance g g + (s.k2 * s.dataRange) ^ 2))

section samples

/-- The last number that the score of a window divides by. -/
noncomputable def divisor (s : Ssim ℝ) (count : ℝ) (sums : Moments ℝ) : ℝ :=
  (sums.x / count * (sums.x / count) + sums.y / count * (sums.y / count) +
      s.k1 * s.dataRange * (s.k1 * s.dataRange)) *
    (count / (count - 1) * (sums.xx / count - sums.x / count * (sums.x / count)) +
        count / (count - 1) * (sums.yy / count - sums.y / count * (sums.y / count)) +
      s.k2 * s.dataRange * (s.k2 * s.dataRange))

theorem localScore_def (s : Ssim ℝ) (count : ℝ) (sums : Moments ℝ) :
    s.localScore count sums =
      (2 * (sums.x / count) * (sums.y / count) + s.k1 * s.dataRange * (s.k1 * s.dataRange)) *
          (2 * (count / (count - 1) *
              (sums.xy / count - sums.x / count * (sums.y / count))) +
            s.k2 * s.dataRange * (s.k2 * s.dataRange)) /
        s.divisor count sums := by
  rw [divisor, ← one_decimal, ← two_decimal]
  rfl

noncomputable def momentsOf (f g : ι → ℝ) : Moments ℝ :=
  ⟨∑ i, f i, ∑ i, g i, ∑ i, f i * f i, ∑ i, g i * g i, ∑ i, f i * g i⟩

variable [Nonempty ι]

theorem divisor_momentsOf (s : Ssim ℝ) (f g : ι → ℝ) :
    s.divisor (Fintype.card ι) (momentsOf f g) =
      (mean f ^ 2 + mean g ^ 2 + (s.k1 * s.dataRange) ^ 2) *
        (covariance f f + covariance g g + (s.k2 * s.dataRange) ^ 2) := by
  simp only [divisor, momentsOf, covariance_eq, mean]
  ring

theorem localScore_momentsOf (s : Ssim ℝ) (f g : ι → ℝ) :
    s.localScore (Fintype.card ι) (momentsOf f g) = s.similarityOf f g := by
  rw [localScore_def, divisor_momentsOf, similarityOf]
  congr 1
  simp only [momentsOf, covariance_eq, mean, two_nsmul]
  ring

end samples

section places

/-- The sums over a window, from the tables. -/
noncomputable def windowMoments (x y : Grid ℝ h w) (r c n : ℕ) (hr : r + n ≤ h) (hc : c + n ≤ w) :
    Moments ℝ :=
  ⟨boxSum (summedArea x) r c n hr hc, boxSum (summedArea y) r c n hr hc,
    boxSum (summedArea (Grid.ofFn fun i j => x[i][j] * x[i][j])) r c n hr hc,
    boxSum (summedArea (Grid.ofFn fun i j => y[i][j] * y[i][j])) r c n hr hc,
    boxSum (summedArea (Grid.ofFn fun i j => x[i][j] * y[i][j])) r c n hr hc⟩

theorem windowMoments_eq (x y : Grid ℝ h w) (r c n : ℕ) (hr : r + n ≤ h) (hc : c + n ≤ w) :
    windowMoments x y r c n hr hc = momentsOf (x.block r c n hr hc) (y.block r c n hr hc) := by
  simp only [windowMoments, momentsOf, boxSum_summedArea]
  simp [Grid.block, Grid.ofFn]

theorem getElem_channelMap (s : Ssim ℝ) (x y : Grid ℝ h w) (n : ℕ) (hh : n ≤ h) (hw : n ≤ w)
    (r c : ℕ) (hr : r < h - n + 1) (hc : c < w - n + 1) :
    (s.channelMap x y n hh hw)[r][c] =
      s.localScore (Scalar.ofNat (n * n))
        (windowMoments x y r c n (window_le hh hr) (window_le hw hc)) := by
  simp only [channelMap, Grid.ofFn, Vector.getElem_ofFn]
  rfl

theorem block_channel (part : Pixel → UInt8) (image : Grid Pixel h w) (r c n : ℕ) (hr : r + n ≤ h)
    (hc : c + n ≤ w) :
    (channel part image : Grid ℝ h w).block r c n hr hc =
      fun p => ((part (image.block r c n hr hc p)).toNat : ℝ) := by
  funext p
  simp only [Grid.block, channel, Vector.getElem_map]
  exact Scalar.ofNat_def _

theorem ofNat_side (n : ℕ) : (Scalar.ofNat (n * n) : ℝ) = Fintype.card (Fin n × Fin n) := by
  rw [Fintype.card_prod, Fintype.card_fin, Scalar.ofNat_def]

theorem getElem_channelMap_channel (s : Ssim ℝ) (part : Pixel → UInt8) (x y : Grid Pixel h w)
    (n : ℕ) (hn : 0 < n) (hh : n ≤ h) (hw : n ≤ w) (r c : ℕ) (hr : r < h - n + 1)
    (hc : c < w - n + 1) :
    (s.channelMap (channel part x) (channel part y) n hh hw)[r][c] =
      s.similarityOf
        (fun p => ((part (x.block r c n (window_le hh hr) (window_le hw hc) p)).toNat : ℝ))
        fun p => ((part (y.block r c n (window_le hh hr) (window_le hw hc) p)).toNat : ℝ) := by
  have : Nonempty (Fin n × Fin n) := ⟨⟨0, hn⟩, ⟨0, hn⟩⟩
  rw [getElem_channelMap, windowMoments_eq, ofNat_side, localScore_momentsOf, block_channel,
    block_channel]

theorem mean_fin_three (f : Fin 3 → ℝ) : mean f = (f 0 + f 1 + f 2) / 3 := by
  rw [mean, Fin.sum_univ_three, Fintype.card_fin]
  rfl

theorem getElem_pixelMap_channels (s : Ssim ℝ) (x y : Grid Pixel h w) (n : ℕ) (hh : n ≤ h)
    (hw : n ≤ w) (r c : ℕ) (hr : r < h - n + 1) (hc : c < w - n + 1) :
    (s.pixelMap x y n hh hw)[r][c] =
      ((s.channelMap (channel Pixel.r x) (channel Pixel.r y) n hh hw)[r][c] +
        (s.channelMap (channel Pixel.g x) (channel Pixel.g y) n hh hw)[r][c] +
        (s.channelMap (channel Pixel.b x) (channel Pixel.b y) n hh hw)[r][c]) / 3 := by
  simp only [pixelMap, Grid.ofFn, Vector.getElem_ofFn, zero_decimal, three_decimal, zero_add]
  rfl

theorem getElem_pixelMap (s : Ssim ℝ) (x y : Grid Pixel h w) (n : ℕ) (hn : 0 < n)
    (hh : n ≤ h) (hw : n ≤ w) (r c : ℕ) (hr : r < h - n + 1) (hc : c < w - n + 1) :
    (s.pixelMap x y n hh hw)[r][c] =
      mean fun k => s.similarityOf (x.levels k r c n (window_le hh hr) (window_le hw hc))
        (y.levels k r c n (window_le hh hr) (window_le hw hc)) := by
  rw [getElem_pixelMap_channels, mean_fin_three]
  simp only [getElem_channelMap_channel s _ x y n hn hh hw]
  rfl

end places

section images

theorem three_le_effectiveWindow? {α : Type} {s : Ssim α} {n : ℕ}
    (hn : s.effectiveWindow? h w = some n) : 3 ≤ n := by
  simp only [effectiveWindow?] at hn
  split at hn
  · cases hn
  · have hodd := Option.some.inj hn
    split at hodd <;> omega

theorem computeMap_mk {α : Type} [Scalar α] (s : Ssim α) (x y : Grid Pixel h w) {n : ℕ}
    (hn : s.effectiveWindow? h w = some n) :
    s.computeMap ⟨h, w, x⟩ ⟨h, w, y⟩ =
      .ok ⟨_, _, s.pixelMap x y n (effectiveWindow?_le hn).2.1 (effectiveWindow?_le hn).2.2⟩ := by
  have hright : (Grid.ofFn fun (r : Fin h) (c : Fin w) => y[r.val][c.val]) = y := by
    simp [Grid.ofFn]
  rw [computeMap, dif_pos ⟨rfl, rfl⟩]
  split
  · rename_i hnone
    rw [hn] at hnone
    cases hnone
  · rename_i window hsome
    obtain rfl : n = window := Option.some.inj (hn.symm.trans hsome)
    simp only [hright]

theorem sum_map_toList {β : Type} {n : ℕ} (v : Vector β n) (f : β → ℝ) :
    (v.toList.map f).sum = ∑ i : Fin n, f v[i] := by
  have hentries : v.toList.map f = List.ofFn fun i : Fin n => f v[i] := by
    apply List.ext_getElem <;> simp
  rw [hentries, List.sum_ofFn]

theorem columnMeans_eq (map : Raster ℝ) :
    columnMeans map = (List.finRange map.width).map fun c : Fin map.width =>
      (∑ r : Fin map.height, map.cells[r][c]) / (map.height : ℝ) := by
  apply List.map_congr_left
  intro c _
  have hcolumn : map.cells.toList.foldl (fun sum row => sum + row[c]) 0.0 =
      ∑ r : Fin map.height, map.cells[r][c] := by
    rw [← List.foldl_map (f := fun row : Vector ℝ map.width => row[c]), foldl_add, sum_map_toList,
      zero_decimal, zero_add]
  rw [← hcolumn]
  exact congrArg _ (Scalar.ofNat_def map.height)

theorem mapMean_eq (map : Raster ℝ) :
    mapMean map = mean map.cells.cell := by
  rw [mapMean, blockSum_eq, columnMeans_eq, ← Fin.sum_univ_def, Scalar.ofNat_def, mean,
    Fintype.card_prod, Fintype.card_fin, Fintype.card_fin, Fintype.sum_prod_type_right,
    ← Finset.sum_div, div_div, Nat.cast_mul]
  rfl

theorem compute_mk (s : Ssim ℝ) (x y : Grid Pixel h w) {n : ℕ}
    (hn : s.effectiveWindow? h w = some n) (hh : n ≤ h) (hw : n ≤ w) :
    s.compute ⟨h, w, x⟩ ⟨h, w, y⟩ = .ok (mean (s.pixelMap x y n hh hw).cell) := by
  rw [compute, computeMap_mk s x y hn]
  exact congrArg Except.ok (mapMean_eq _)

/-- Each entry of the map is the similarity, by its definition, of the two images in the window with
its upper left corner at that place, averaged over the channels. There is an entry for every window
that lies inside and no other, and the score is the mean of all entries. -/
theorem computeMap_similarityOf (s : Ssim ℝ) (x y : Grid Pixel h w) {n : ℕ}
    (hn : s.effectiveWindow? h w = some n) :
    ∃ map : Grid ℝ (h - n + 1) (w - n + 1),
      s.computeMap ⟨h, w, x⟩ ⟨h, w, y⟩ = .ok ⟨_, _, map⟩ ∧
      (∀ r c, map.get? r c =
        if hrc : r + n ≤ h ∧ c + n ≤ w then
          some (mean fun k => s.similarityOf (x.levels k r c n hrc.1 hrc.2)
            (y.levels k r c n hrc.1 hrc.2))
        else none) ∧
      s.compute ⟨h, w, x⟩ ⟨h, w, y⟩ = .ok (mean map.cell) := by
  obtain ⟨hpos, hh, hw⟩ := effectiveWindow?_le hn
  refine ⟨s.pixelMap x y n hh hw, s.computeMap_mk x y hn, fun r c => ?_,
    s.compute_mk x y hn hh hw⟩
  rw [Grid.get?_eq]
  by_cases hrc : r + n ≤ h ∧ c + n ≤ w
  · rw [dif_pos hrc, dif_pos (by omega), getElem_pixelMap s x y n hpos hh hw]
  · rw [dif_neg hrc, dif_neg (by omega)]

def gray (a : UInt8) : Pixel := ⟨a, a, a⟩

theorem level_gray (a : UInt8) (k : Fin 3) : (gray a).level k = a.toNat := by
  fin_cases k <;> rfl

def dotted : Grid Pixel 3 4 := .ofFn fun r c => gray (if r.val + c.val = 0 then 1 else 0)

def black : Grid Pixel 3 4 := .ofFn fun _ _ => gray 0

noncomputable def unitSsim : Ssim ℝ := ⟨7, 1, 1, 1⟩

theorem computeMap_similarityOf_dotted :
    unitSsim.effectiveWindow? 3 4 = some 3 ∧
      ∃ map : Grid ℝ 1 2, unitSsim.computeMap ⟨3, 4, dotted⟩ ⟨3, 4, black⟩ = .ok ⟨_, _, map⟩ ∧
        map.get? 0 0 = some (729 / 820) ∧ map.get? 0 1 = some 1 ∧ map.get? 0 2 = none := by
  have hwindow : unitSsim.effectiveWindow? 3 4 = some 3 := by
    simp [effectiveWindow?, unitSsim]
  obtain ⟨map, hmap, hentries, _⟩ := computeMap_similarityOf unitSsim dotted black hwindow
  have hdot (k : Fin 3) (hr : 0 + 3 ≤ 3) (hc : 0 + 3 ≤ 4) :
      dotted.levels k 0 0 3 hr hc = fun p => if p = (0, 0) then 1 else 0 := by
    funext p
    have hcorner : p.1.val + p.2.val = 0 ↔ p = (0, 0) := by
      simp [Prod.ext_iff]
    simp only [Grid.levels, Grid.block, dotted, Grid.ofFn, Vector.getElem_ofFn, level_gray,
      zero_add, hcorner]
    split <;> simp
  have haside (k : Fin 3) (hr : 0 + 3 ≤ 3) (hc : 1 + 3 ≤ 4) :
      dotted.levels k 0 1 3 hr hc = fun _ => 0 := by
    funext p
    simp [Grid.levels, Grid.block, dotted, Grid.ofFn, level_gray]
  have hblack (k : Fin 3) (c : ℕ) (hr : 0 + 3 ≤ 3) (hc : c + 3 ≤ 4) :
      black.levels k 0 c 3 hr hc = fun _ => 0 := by
    funext p
    simp [Grid.levels, Grid.block, black, Grid.ofFn, level_gray]
  refine ⟨hwindow, map, hmap, ?_, ?_, ?_⟩
  · rw [hentries, dif_pos (by decide)]
    simp only [hdot, hblack]
    norm_num [similarityOf, covariance_eq, mean, unitSsim]
  · rw [hentries, dif_pos (by decide)]
    simp only [haside, hblack]
    norm_num [similarityOf, covariance_eq, mean, unitSsim]
  · rw [hentries, dif_neg (by decide)]

end images
end Ssim
end TrackingScore
