import TrackingScore.Proofs.CornerDetection
import TrackingScore.Proofs.DescriptorMatches
import TrackingScore.Proofs.Exact.Summary
import TrackingScore.Proofs.PerfectRun

/-!
Distances between the features of two images, with exact numbers. Descriptors are of length one or
all zero, so none is farther than two from another, and every descriptor of an image is at no distance
from one of the same image.
-/

namespace TrackingScore

open Scalar Set

section rows

noncomputable def sumSquares (row : List ℝ) : ℝ := (row.map fun x => x * x).sum

noncomputable def sumSquaredDifferences (a b : List ℝ) : ℝ :=
  (List.zipWith (fun x y => (x - y) * (x - y)) a b).sum

theorem sumSquares_nonneg (row : List ℝ) : 0 ≤ sumSquares row :=
  List.sum_nonneg (List.forall_mem_map.2 fun x _ => mul_self_nonneg x)

theorem sumSquares_divide (row : List ℝ) (d : ℝ) :
    sumSquares (row.map (· / d)) = sumSquares row / (d * d) := by
  rw [sumSquares, sumSquares, List.map_map, div_eq_mul_inv, ← List.sum_map_mul_right]
  refine congrArg List.sum (List.map_congr_left fun x _ => ?_)
  exact div_mul_div_comm x d x d

theorem sumSquares_normalized {row : List ℝ} (h : √(sumSquares row) ≠ 0) :
    sumSquares (row.map (· / √(sumSquares row))) = 1 := by
  have hsquare := Real.mul_self_sqrt (sumSquares_nonneg row)
  rw [sumSquares_divide, hsquare, div_self]
  rwa [← hsquare, mul_self_ne_zero]

theorem sumSquares_zeros (row : List ℝ) : sumSquares (row.map fun _ => 0.0) = 0 := by
  simp [sumSquares, zero_decimal]

theorem sumSquaredDifferences_self (row : List ℝ) : sumSquaredDifferences row row = 0 := by
  rw [sumSquaredDifferences, List.zipWith_self]
  simp

theorem sumSquaredDifferences_le (a b : List ℝ) :
    sumSquaredDifferences a b ≤ 2 * (sumSquares a + sumSquares b) := by
  induction a generalizing b with
  | nil =>
    have hb := sumSquares_nonneg b
    simpa [sumSquaredDifferences, sumSquares] using hb
  | cons x a ih =>
    cases b with
    | nil =>
      have ha := sumSquares_nonneg (x :: a)
      simpa [sumSquaredDifferences, sumSquares] using ha
    | cons y b =>
      have hrest := ih b
      simp only [sumSquaredDifferences, sumSquares, List.zipWith_cons_cons, List.map_cons,
        List.sum_cons] at hrest ⊢
      -- the squares of the sum and of the difference together are twice those of the two
      nlinarith [mul_self_nonneg (x + y)]

theorem euclidean_def (a b : List ℝ) : euclidean a b = √(sumSquaredDifferences a b) := by
  rw [euclidean, List.map_zip_eq_zipWith, ← total, total_eq]
  rfl

theorem euclidean_self (row : List ℝ) : euclidean row row = 0 := by
  rw [euclidean_def, sumSquaredDifferences_self, Real.sqrt_zero]

theorem euclidean_mem_Icc {a b : List ℝ} (ha : sumSquares a ≤ 1) (hb : sumSquares b ≤ 1) :
    euclidean a b ∈ Icc 0 2 := by
  rw [euclidean_def]
  refine ⟨Real.sqrt_nonneg _, Real.sqrt_le_iff.2 ⟨zero_le_two, ?_⟩⟩
  linarith [sumSquaredDifferences_le a b]

end rows

namespace HarrisExtractor

theorem sumSquares_normalizePatch_le (width : ℕ) (rows : List (List ℝ)) :
    sumSquares (normalizePatch width rows) ≤ 1 := by
  rw [normalizePatch]
  generalize (rows.flatten.map fun x => x - windowSumIn width rows / ofNat rows.flatten.length) = row
  rw [total_eq]
  -- only a length above the cutoff is divided by
  split
  case isTrue hnorm =>
    have habove : 1e-6 < √(sumSquares row) := of_decide_eq_true hnorm
    have hpos : 0 < √(sumSquares row) := lt_trans (by norm_num) habove
    exact (sumSquares_normalized hpos.ne').le
  case isFalse =>
    rw [sumSquares_zeros]
    exact zero_le_one

theorem size_eq_size (e : HarrisExtractor ℝ) (luma other : Raster ℝ) :
    (e.features luma).descriptors.size = (e.features other).descriptors.size :=
  (e.reports_features luma e.maxFeatures).size_eq.trans
    (e.reports_features other e.maxFeatures).size_eq.symm

theorem sumSquares_descriptor_le {e : HarrisExtractor ℝ} {luma : Raster ℝ} {row : List ℝ}
    (h : row ∈ (e.features luma).descriptors.rows) : sumSquares row ≤ 1 := by
  have hrows : (e.features luma).descriptors.rows = _ :=
    (e.reports_features luma e.maxFeatures).rows_eq
  rw [hrows] at h
  obtain ⟨s, _, rfl⟩ := List.mem_map.1 h
  exact sumSquares_normalizePatch_le _ _

end HarrisExtractor

namespace BruteForceMatcher

theorem measurable_rows (query train : List (List ℝ)) : Measurable query train := by
  simp [Measurable, isNaN, same]

variable {m : BruteForceMatcher} {query train : List (List ℝ)} {p : DescriptorMatch ℝ}

theorem nearest_of_mem_pairs (h : p ∈ m.pairs query train) : Nearest query train p := by
  rw [← mem_pairs_unchecked (measurable_rows query train)]
  obtain ⟨_ | _⟩ := m
  · exact h
  · exact (pairs_checked_sublist query train).subset h

theorem distance_mem_Icc (hquery : ∀ row ∈ query, sumSquares row ≤ 1)
    (htrain : ∀ row ∈ train, sumSquares row ≤ 1) (h : p ∈ m.pairs query train) :
    p.distance ∈ Icc 0 2 := by
  obtain ⟨row, hrow, hleast⟩ := nearest_of_mem_pairs h
  obtain ⟨other, hother, hdistance⟩ := hleast.exists_row
  rw [← hdistance]
  exact euclidean_mem_Icc (hquery row (List.mem_of_getElem? hrow))
    (htrain other (List.mem_of_getElem? hother))

theorem distance_eq_zero_of_self (h : p ∈ m.pairs query query) : p.distance = 0 := by
  obtain ⟨row, hrow, hleast⟩ := nearest_of_mem_pairs h
  obtain ⟨other, _, hdistance⟩ := hleast.exists_row
  have hself := hleast.least _ (List.mem_map_of_mem (List.mem_of_getElem? hrow))
  rw [euclidean_self] at hself
  refine le_antisymm (of_decide_eq_true hself) ?_
  rw [← hdistance, euclidean_def]
  exact Real.sqrt_nonneg _

end BruteForceMatcher

open HarrisExtractor BruteForceMatcher

theorem featureDistance_eq {e : HarrisExtractor ℝ} (h : e.Addressable) (m : BruteForceMatcher)
    (x y : RgbImage) :
    featureDistance (e.extractor ℝ h) (m.matcher ℝ ℝ) x y =
      .ok (.ofValues ((m.pairs (e.features x.luma).descriptors.rows
        (e.features y.luma).descriptors.rows).map (·.distance))) := by
  -- detection never fails, so the matcher decides
  change (m.matchRows (e.features x.luma).descriptors (e.features y.luma).descriptors >>= _) = _
  rw [m.matchRows_eq_ok (e.size_eq_size x.luma y.luma)]
  rfl

/-- Features of images are compared without failing. No distance is greater than two, the figures lie
between zero and the greatest distance, and an image is at no distance from itself. -/
theorem featureDistance_mem_Icc (e : HarrisExtractor ℝ) (h : e.Addressable) (m : BruteForceMatcher)
    (x y : RgbImage) :
    ∃ extractor, e.extractor? ℝ = some extractor ∧
      (∃ matched s, m.matchRows (α := ℝ) (e.features x.luma).descriptors
            (e.features y.luma).descriptors = .ok matched ∧
          featureDistance extractor (m.matcher ℝ ℝ) x y = .ok s ∧
          s = .ofValues (matched.map (·.distance)) ∧
          (∀ p ∈ matched, p.distance ∈ Icc 0 2) ∧
          s.median ∈ Icc 0 s.max ∧ s.mean ∈ Icc 0 s.max ∧ s.max ≤ 2 ∧
          (matched = [] → s = ⟨0, 0, 0⟩)) ∧
        featureDistance extractor (m.matcher ℝ ℝ) x x = .ok ⟨0, 0, 0⟩ := by
  have hrange (p : DescriptorMatch ℝ) (hp : p ∈ m.pairs (e.features x.luma).descriptors.rows
      (e.features y.luma).descriptors.rows) : p.distance ∈ Icc 0 2 :=
    distance_mem_Icc (fun _ => sumSquares_descriptor_le) (fun _ => sumSquares_descriptor_le) hp
  refine ⟨_, extractor?_of_addressable h, ?_, ?_⟩
  · obtain ⟨hmedian, hmean, hmax⟩ :=
      Summary.ofValues_mem_Icc zero_le_two (List.forall_mem_map.2 hrange)
    refine ⟨_, _, m.matchRows_eq_ok (e.size_eq_size x.luma y.luma), featureDistance_eq h m x y, rfl,
      hrange, hmedian, hmean, hmax, fun hnone => ?_⟩
    rw [hnone]
    exact Summary.ofValues_nil
  · rw [featureDistance_eq, Summary.ofValues_eq_zero]
    exact List.forall_mem_map.2 fun p hp => distance_eq_zero_of_self hp

noncomputable def withPatch (radius : ℕ) : HarrisExtractor ℝ :=
  { HarrisExtractor.default with patchRadius := radius }

theorem withPatch_addressable_iff {radius : ℕ} :
    (withPatch radius).Addressable ↔ (2 * radius + 1) * (2 * radius + 1) < 9223372036854775808 :=
  Iff.rfl

def blackImage (h w : ℕ) : RgbImage := .ofFn h w fun _ _ => ⟨0, 0, 0⟩

theorem featureDistance_mem_Icc_largest : (withPatch 1518500249).Addressable ∧
    ∃ extractor, (withPatch 1518500249).extractor? ℝ = some extractor ∧
      (∃ s, featureDistance extractor ((BruteForceMatcher.mk true).matcher ℝ ℝ) (blackImage 12 12)
          (blackImage 1 2) = .ok s ∧ s.median ∈ Icc 0 s.max ∧ s.max ≤ 2) ∧
        featureDistance extractor ((BruteForceMatcher.mk true).matcher ℝ ℝ) (blackImage 12 12)
          (blackImage 12 12) = .ok ⟨0, 0, 0⟩ := by
  have h : (withPatch 1518500249).Addressable := withPatch_addressable_iff.2 (by norm_num)
  obtain ⟨extractor, hextractor, ⟨_, s, _, hdistance, _, _, hmedian, _, hmax, _⟩, hself⟩ :=
    featureDistance_mem_Icc _ h (.mk true) (blackImage 12 12) (blackImage 1 2)
  exact ⟨h, extractor, hextractor, ⟨s, hdistance, hmedian, hmax⟩, hself⟩

/-- With patches one cell larger to each side there are no features and so no distance. -/
theorem featureDistance_none : (withPatch 1518500250).extractor? ℝ = none ∧
    ¬∃ extractor s, (withPatch 1518500250).extractor? ℝ = some extractor ∧
      featureDistance extractor ((BruteForceMatcher.mk true).matcher ℝ ℝ) (blackImage 12 12)
        (blackImage 12 12) = .ok s := by
  have hnone : (withPatch 1518500250).extractor? ℝ = none := by
    rw [extractor?_eq_none_iff, withPatch_addressable_iff]
    norm_num
  refine ⟨hnone, ?_⟩
  rintro ⟨extractor, _, hextractor, _⟩
  rw [hnone] at hextractor
  cases hextractor

end TrackingScore
