import TrackingScore.Proofs.FeatureDistance

/-!
Features of an image in another light, with exact numbers. Brightness stretched by a positive gain and
raised by an offset makes every response greater by the fourth power of the gain. Comparisons of
responses do not see a positive factor, so the same places are found in the same order, and a patch
with its mean taken out and its length made one is the same patch.
-/

namespace TrackingScore

open Scalar

section scale

variable {c : ℝ} {h w margin : ℕ}

theorem less_scale (hc : 0 < c) (x y : ℝ) : less (c * x) (c * y) = less x y := by
  simp only [less, mul_lt_mul_iff_right₀ hc]

theorem same_scale (hc : 0 < c) (x y : ℝ) : same (c * x) (c * y) = same x y := by
  simp only [same, mul_right_inj' hc.ne']

theorem sortsBefore_scale (hc : 0 < c) (x y : ℝ) :
    sortsBefore (c * x) (c * y) = sortsBefore x y := by
  simp only [sortsBefore, isNaN, same_scale hc, atMost, mul_le_mul_iff_right₀ hc]

noncomputable def Grid.scale (c : ℝ) (g : Grid ℝ h w) : Grid ℝ h w :=
  Vector.map (Vector.map (c * ·)) g

theorem Spot.read_scale (s : Spot h w margin) (g : Grid ℝ h w) :
    s.read (g.scale c) = c * s.read g := by
  simp [Spot.read, Grid.scale]

theorem Grid.toCells_scale (g : Grid ℝ h w) : (g.scale c).toCells = g.toCells.map (c * ·) := by
  simp [Grid.toCells, Grid.scale, List.map_flatMap, List.flatMap_map, Vector.toList_map]

end scale

section sums

theorem windowSum_eq (rows : List (List ℝ)) : windowSum rows = rows.flatten.sum := by
  have hrows : windowSum rows = (rows.map blockSum).foldl (· + ·) 0.0 := List.foldl_map.symm
  rw [hrows, foldl_add, zero_decimal, zero_add, List.sum_flatten]
  exact congrArg List.sum (List.map_congr_left fun row _ => blockSum_eq row)

theorem windowSumIn_eq (width : ℕ) (rows : List (List ℝ)) :
    windowSumIn width rows = rows.flatten.sum := by
  rw [windowSumIn]
  split
  · exact blockSum_eq _
  · exact windowSum_eq _

theorem windowSum_scale (c : ℝ) (rows : List (List ℝ)) :
    windowSum (rows.map (List.map (c * ·))) = c * windowSum rows := by
  rw [windowSum_eq, windowSum_eq, ← List.map_flatten, List.sum_map_mul_left, List.map_id']

theorem patchAt_map {β γ : Type} {h w margin : ℕ} (f : β → γ) (cells : Grid β h w)
    (s : Spot h w margin) (radius : ℕ) (hr : radius ≤ margin) :
    patchAt (Vector.map (Vector.map f) cells) s radius hr =
      (patchAt cells s radius hr).map (List.map f) := by
  simp [patchAt]

end sums

noncomputable def Grid.relight {h w : ℕ} (gain offset : ℝ) (luma : Grid ℝ h w) : Grid ℝ h w :=
  Vector.map (Vector.map fun x => gain * x + offset) luma

section response

variable {h w margin : ℕ} {c gain : ℝ} (offset : ℝ) (luma : Grid ℝ h w)

theorem gradient_relight (row col : ℕ) (hr : 1 ≤ row ∧ row + 1 < h) (hc : 1 ≤ col ∧ col + 1 < w) :
    gradient (luma.relight gain offset) row col hr hc =
      (gain * (gradient luma row col hr hc).1, gain * (gradient luma row col hr hc).2) := by
  simp only [gradient, Grid.relight, Vector.getElem_map]
  ext <;> ring

theorem gradientProduct_relight {product : ℝ → ℝ → ℝ}
    (hproduct : ∀ x y, product (gain * x) (gain * y) = gain ^ 2 * product x y) :
    gradientProduct product (luma.relight gain offset) =
      (gradientProduct product luma).scale (gain ^ 2) := by
  simp only [gradientProduct, Grid.scale, Grid.ofFn, Vector.map_ofFn, Function.comp_def]
  congr! 5 with r c
  split
  · rw [gradient_relight, hproduct]
  · rw [zero_decimal, mul_zero]

namespace HarrisExtractor

variable (e : HarrisExtractor ℝ)

theorem cornerness_scale (sxx syy sxy : ℝ) :
    e.cornerness (c * sxx) (c * syy) (c * sxy) = c ^ 2 * e.cornerness sxx syy sxy := by
  simp only [cornerness]
  ring

theorem response_relight :
    e.response (luma.relight gain offset) = (e.response luma).scale (gain ^ 4) := by
  simp only [response, Grid.scale, Grid.ofFn, Vector.map_ofFn, Function.comp_def]
  congr! 5 with r c
  split
  · rw [gradientProduct_relight offset luma fun x y => by ring,
      gradientProduct_relight offset luma fun x y => by ring,
      gradientProduct_relight offset luma fun x y => by ring]
    simp only [Grid.scale, patchAt_map, windowSum_scale, cornerness_scale]
    ring
  · rw [zero_decimal, mul_zero]

end HarrisExtractor
end response

namespace HarrisExtractor

variable {h w margin radius : ℕ} {c level : ℝ} {e : HarrisExtractor ℝ} {response : Grid ℝ h w}

theorem strongest_scale (hc : 0 < c) (response : Grid ℝ h w) :
    strongest (response.scale c) = c * strongest response := by
  rw [strongest, strongest, Grid.toCells_scale, List.foldl_map]
  calc
    _ = response.toCells.foldl (fun best x => if less best (c * x) then c * x else best) (c * 0.0) := by
      rw [zero_decimal, mul_zero]
    _ = _ := List.foldl_hom (c * ·) fun best x => by
      rw [less_scale hc]
      split <;> rfl

theorem eligible_scale (hc : 0 < c) {s : Spot h w margin} :
    Eligible radius (response.scale c) (c * level) s ↔ Eligible radius response level s := by
  constructor
  · rintro ⟨habove, hunbeaten, hfirst⟩
    simp only [Spot.read_scale, less_scale hc, same_scale hc] at habove hunbeaten hfirst
    exact ⟨habove, hunbeaten, hfirst⟩
  · rintro ⟨habove, hunbeaten, hfirst⟩
    constructor <;> simpa only [Spot.read_scale, less_scale hc, same_scale hc]

theorem found_scale (hc : 0 < c) (e : HarrisExtractor ℝ) (response : Grid ℝ h w) :
    e.found (response.scale c) = e.found response := by
  have hlevel : e.threshold (response.scale c) = c * e.threshold response := by
    rw [threshold, threshold, strongest_scale hc, mul_assoc]
  have horder : (strongerFirst (response.scale c) : Spot h w e.border → _) =
      strongerFirst response := by
    funext s t
    simp only [strongerFirst, Spot.read_scale, sortsBefore_scale hc]
  simp only [found, eligibleSpots, hlevel, horder, eligible_scale hc]

end HarrisExtractor

section patches

noncomputable def centered (xs : List ℝ) : List ℝ := xs.map (· - average xs)

theorem average_affine {xs : List ℝ} (hne : xs ≠ []) (gain offset : ℝ) :
    average (xs.map fun x => gain * x + offset) = gain * average xs + offset := by
  have hlength : (xs.length : ℝ) ≠ 0 := by simpa using hne
  rw [average_def, average_def, List.sum_map_add, List.sum_map_mul_left, List.map_id',
    List.map_const', List.sum_replicate, List.length_map, nsmul_eq_mul]
  field_simp

theorem centered_affine (xs : List ℝ) (gain offset : ℝ) :
    centered (xs.map fun x => gain * x + offset) = (centered xs).map (gain * ·) := by
  rcases eq_or_ne xs [] with rfl | hne
  · rfl
  · rw [centered, average_affine hne, centered, List.map_map, List.map_map]
    refine List.map_congr_left fun x _ => ?_
    simp only [Function.comp_apply]
    ring

theorem sumSquares_scale (gain : ℝ) (row : List ℝ) :
    sumSquares (row.map (gain * ·)) = gain ^ 2 * sumSquares row := by
  rw [sumSquares, sumSquares, List.map_map, ← List.sum_map_mul_left]
  refine congrArg List.sum (List.map_congr_left fun x _ => ?_)
  simp only [Function.comp_apply]
  ring

theorem sqrt_sumSquares_scale {gain : ℝ} (hgain : 0 < gain) (row : List ℝ) :
    √(sumSquares (row.map (gain * ·))) = gain * √(sumSquares row) := by
  rw [sumSquares_scale, Real.sqrt_mul (sq_nonneg gain), Real.sqrt_sq hgain.le]

end patches

namespace HarrisExtractor

variable {h w : ℕ} {e : HarrisExtractor ℝ} {luma : Grid ℝ h w} {s : Spot h w e.border} {gain : ℝ}

noncomputable def reliefAt (e : HarrisExtractor ℝ) (luma : Grid ℝ h w) (s : Spot h w e.border) :
    List ℝ :=
  centered (patchAt luma s e.patchRadius e.patchRadius_le_border).flatten

noncomputable def contrastAt (e : HarrisExtractor ℝ) (luma : Grid ℝ h w) (s : Spot h w e.border) :
    ℝ :=
  √(sumSquares (e.reliefAt luma s))

theorem reliefAt_relight (gain offset : ℝ) :
    e.reliefAt (luma.relight gain offset) s = (e.reliefAt luma s).map (gain * ·) := by
  rw [reliefAt, Grid.relight, patchAt_map, ← List.map_flatten, centered_affine, reliefAt]

theorem contrastAt_relight (hgain : 0 < gain) (offset : ℝ) :
    e.contrastAt (luma.relight gain offset) s = gain * e.contrastAt luma s := by
  rw [contrastAt, reliefAt_relight, sqrt_sumSquares_scale hgain, contrastAt]

theorem descriptorAt_of_contrast (h : 1e-6 < e.contrastAt luma s) :
    e.descriptorAt luma s = (e.reliefAt luma s).map (· / e.contrastAt luma s) := by
  have hmean (rows : List (List ℝ)) :
      windowSumIn w rows / ofNat rows.flatten.length = average rows.flatten := by
    rw [windowSumIn_eq, average_def, ofNat_def]
  simp only [descriptorAt, normalizePatch, hmean, total_eq]
  exact if_pos (decide_eq_true h)

theorem descriptorAt_relight (hgain : 0 < gain) (offset : ℝ)
    (hbefore : 1e-6 < e.contrastAt luma s)
    (hafter : 1e-6 < e.contrastAt (luma.relight gain offset) s) :
    e.descriptorAt (luma.relight gain offset) s = e.descriptorAt luma s := by
  rw [descriptorAt_of_contrast hafter, descriptorAt_of_contrast hbefore, reliefAt_relight,
    contrastAt_relight hgain, List.map_map]
  exact List.map_congr_left fun x _ => mul_div_mul_left x _ hgain.ne'

end HarrisExtractor

def Keypoint.scale {ρ : Type} [Mul ρ] (c : ρ) (k : Keypoint ρ) : Keypoint ρ :=
  { k with response := c * k.response }

namespace HarrisExtractor

theorem detection_found (e : HarrisExtractor ℝ) (luma : Raster ℝ) :
    e.Detection luma (e.found (e.response luma.cells)) :=
  ⟨fun _ => mem_found, pairwise_ordered, pairwise_separated⟩

theorem keypointAt_scale {h w margin : ℕ} (c : ℝ) (response : Grid ℝ h w) (s : Spot h w margin) :
    keypointAt (response.scale c) s = (keypointAt response s).scale c := by
  rw [keypointAt, Spot.read_scale]
  rfl

/-- Light changes neither which places are found nor their order. Every response is multiplied by the
fourth power of the gain, and a place is described as before if its patch is flat in neither light. -/
theorem run_relight {α : Type} {h w : ℕ} (e : HarrisExtractor ℝ) (luma : Grid ℝ h w) {gain : ℝ}
    (hgain : 0 < gain) (offset : ℝ) :
    ∃ (found : List (Spot h w e.border)) (before after : Features ℝ),
      e.Detection ⟨h, w, luma⟩ found ∧ e.Detection ⟨h, w, luma.relight gain offset⟩ found ∧
      e.detect? α ⟨h, w, luma⟩ = (if e.Addressable then some (.ok before) else none) ∧
      e.detect? α ⟨h, w, luma.relight gain offset⟩ =
        (if e.Addressable then some (.ok after) else none) ∧
      e.Reports ⟨h, w, luma⟩ (found.take e.maxFeatures) before ∧
      e.Reports ⟨h, w, luma.relight gain offset⟩ (found.take e.maxFeatures) after ∧
      after.keypoints = before.keypoints.map (Keypoint.scale (gain ^ 4)) ∧
      ∀ (i : ℕ) s, (found.take e.maxFeatures)[i]? = some s → 1e-6 < e.contrastAt luma s →
        1e-6 < e.contrastAt (luma.relight gain offset) s →
          after.descriptors.rows[i]? = before.descriptors.rows[i]? := by
  have hresponse : e.response (luma.relight gain offset) = (e.response luma).scale (gain ^ 4) :=
    e.response_relight offset luma
  have hfound : e.found (e.response (luma.relight gain offset)) = e.found (e.response luma) := by
    rw [hresponse, found_scale (pow_pos hgain 4)]
  have hbefore := e.reports_features ⟨h, w, luma⟩ e.maxFeatures
  have hafter := e.reports_features ⟨h, w, luma.relight gain offset⟩ e.maxFeatures
  have hdetection := e.detection_found ⟨h, w, luma.relight gain offset⟩
  simp only [hfound] at hafter hdetection
  refine ⟨e.found (e.response luma), _, _, e.detection_found ⟨h, w, luma⟩, hdetection,
    e.detect?_eq _, e.detect?_eq _, hbefore, hafter, ?_, fun i s hs hcontrast hcontrast' => ?_⟩
  · refine hafter.keypoints_eq.trans (Eq.trans ?_ (congrArg _ hbefore.keypoints_eq).symm)
    simp only [hresponse, List.map_map]
    exact List.map_congr_left fun s _ => keypointAt_scale _ _ s
  · have hrow := congrArg (·[i]?) hbefore.rows_eq
    have hrow' := congrArg (·[i]?) hafter.rows_eq
    simp only [List.getElem?_map, hs, Option.map_some] at hrow hrow'
    refine hrow'.trans (Eq.trans (congrArg some ?_) hrow.symm)
    exact descriptorAt_relight hgain offset hcontrast hcontrast'

noncomputable def quadrant : Grid ℝ 5 5 := .ofFn fun r c => if 2 ≤ r.val ∧ 2 ≤ c.val then 1 else 0

noncomputable def quadrantCorners : HarrisExtractor ℝ := ⟨500, 1 / 16, 0, 1, 0⟩

noncomputable def quadrantCenter : Spot 5 5 quadrantCorners.border :=
  ⟨2, 2, by decide, by decide, by decide, by decide⟩

theorem eq_quadrantCenter (s : Spot 5 5 quadrantCorners.border) : s = quadrantCenter := by
  obtain ⟨r, c, hr, hr', hc, hc'⟩ := s
  simp only [border, quadrantCorners] at hr hr' hc hc'
  obtain rfl : r = 2 := by omega
  obtain rfl : c = 2 := by omega
  rfl

theorem quadrant_response : quadrantCenter.read (quadrantCorners.response quadrant) = 11 / 16 := by
  simp only [Spot.read, quadrantCenter, response, Grid.ofFn, Vector.getElem_ofFn, windowSum_eq,
    cornerness]
  simp [patchAt, gradientProduct, gradient, quadrant, Grid.ofFn, List.finRange_succ,
    quadrantCorners]
  norm_num

theorem quadrant_contrast : quadrantCorners.contrastAt quadrant quadrantCenter = √(20 / 9) := by
  change √(sumSquares (centered (patchAt quadrant _ 1 _).flatten)) = _
  simp only [centered, average_def, sumSquares]
  simp [patchAt, quadrantCenter, quadrant, Grid.ofFn, List.finRange_succ]
  norm_num

theorem eligible_quadrantCenter :
    Eligible quadrantCorners.nmsRadius (quadrantCorners.response quadrant)
      (quadrantCorners.threshold (quadrantCorners.response quadrant)) quadrantCenter := by
  -- the window of a place is the place alone
  have halone (t : Spot 5 5 0) (ht : quadrantCenter.chebyshev t ≤ 0) : t = quadrantCenter.place := by
    rw [Spot.chebyshev, Nat.max_le, Nat.le_zero, Nat.le_zero] at ht
    obtain ⟨r, c, _, _, _, _⟩ := t
    obtain rfl := Nat.eq_of_dist_eq_zero ht.1
    obtain rfl := Nat.eq_of_dist_eq_zero ht.2
    rfl
  refine ⟨?_, fun t ht => ?_, fun t ht hbefore => ?_⟩
  · rw [quadrant_response, threshold, quadrantCorners, mul_zero]
    exact decide_eq_true (by norm_num)
  · rw [halone t ht]
    exact LawfulScalar.not_less_self
  · rw [halone t ht, Spot.RasterBefore] at hbefore
    simp [Spot.place] at hbefore

theorem run_relight_quadrant :
    ∃ (found : List (Spot 5 5 quadrantCorners.border)) (before after : Features ℝ),
      quadrantCorners.Detection ⟨5, 5, quadrant⟩ found ∧
      quadrantCorners.detect? Unit ⟨5, 5, quadrant⟩ = some (.ok before) ∧
      quadrantCorners.detect? Unit ⟨5, 5, quadrant.relight (1 / 2) (1 / 4)⟩ = some (.ok after) ∧
      before.keypoints = [⟨2, 2, 11 / 16⟩] ∧ after.keypoints = [⟨2, 2, 11 / 256⟩] ∧
      after.descriptors.rows[0]? = before.descriptors.rows[0]? := by
  have hgain : (0 : ℝ) < 1 / 2 := by norm_num
  obtain ⟨found, before, after, hdetection, -, hbefore, hafter, hreports, -, hkeypoints, hrows⟩ :=
    run_relight (α := Unit) quadrantCorners quadrant hgain (1 / 4)
  have hnodup : found.Nodup := hdetection.separated.imp fun {s t} hst heq => by
    rw [heq, Spot.chebyshev, Nat.dist_self, Nat.dist_self] at hst
    exact Nat.not_lt_zero _ hst
  have hmem : quadrantCenter ∈ found := (hdetection.mem_iff _).2 eligible_quadrantCenter
  obtain rfl : found = [quadrantCenter] := List.perm_singleton.1 <|
    (List.perm_ext_iff_of_nodup hnodup (List.nodup_singleton _)).2 fun s => by
      simp [eq_quadrantCenter s, hmem]
  have hone : before.keypoints = [⟨2, 2, 11 / 16⟩] := by
    rw [← quadrant_response]
    exact hreports.keypoints_eq
  have hcontrast : 1 < √(20 / 9 : ℝ) := Real.lt_sqrt_of_sq_lt (by norm_num)
  refine ⟨_, before, after, hdetection, hbefore, hafter, hone, ?_, hrows 0 _ rfl ?_ ?_⟩
  · rw [hkeypoints, hone]
    norm_num [Keypoint.scale]
  · rw [quadrant_contrast]
    linarith
  · rw [contrastAt_relight hgain, quadrant_contrast]
    linarith

end HarrisExtractor
end TrackingScore
