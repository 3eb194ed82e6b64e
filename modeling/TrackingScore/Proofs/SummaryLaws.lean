import Mathlib.Algebra.Order.Chebyshev
import Mathlib.Data.List.Sort
import TrackingScore.Proofs.Exact.Summary
import TrackingScore.Run.Results

/-!
What the figures that sum up a list of exact numbers tell of it. They do not depend on its order, the
median parts it in halves, and the root of the mean of the squares lies between the mean and the
greatest absolute value. So do the figures of the columns of error samples and of frame distances.
-/

namespace TrackingScore

open Scalar Set

variable {values values' : List ℝ} {m : ℝ}

section order

theorem sorted_eq_of_perm (h : values.Perm values') : sorted values = sorted values' := by
  have hperm : (sorted values).Perm (sorted values') :=
    (sorted_perm values).trans (h.trans (sorted_perm values').symm)
  exact hperm.eq_of_pairwise (fun _ _ _ _ => le_antisymm) (pairwise_sorted values)
    (pairwise_sorted values')

theorem average_eq_of_perm (h : values.Perm values') : average values = average values' := by
  rw [average_def, average_def, h.sum_eq, h.length_eq]

theorem Summary.ofValues_eq_of_perm (h : values.Perm values') :
    Summary.ofValues values = Summary.ofValues values' := by
  rw [ofValues, ofValues, h.isEmpty_eq, sorted_eq_of_perm h, average_eq_of_perm h]

theorem rms_eq_of_perm (h : values.Perm values') : rms values = rms values' := by
  rw [rms, rms, h.isEmpty_eq, average_eq_of_perm (h.map _)]

theorem ColumnSummary.ofValues_eq_of_perm (h : values.Perm values') :
    ColumnSummary.ofValues values = ColumnSummary.ofValues values' := by
  rw [ofValues, ofValues, Summary.ofValues_eq_of_perm h, rms_eq_of_perm h]

end order

section median

/-- The middle of a sorted list lies between the last number of its lower half and the first one of
its upper half, which are the same one if the length is odd. -/
theorem middle_between (hs : values.Pairwise (· ≤ ·)) (hne : 0 < values.length) :
    values[(values.length - 1) / 2] ≤ middle values ∧ middle values ≤ values[values.length / 2] := by
  rw [middle, List.getD_eq_getElem _ _ (by omega), List.getD_eq_getElem _ _ (by omega)]
  split_ifs with heven
  · have hlower : (values.length - 1) / 2 = values.length / 2 - 1 := by omega
    have hle : values[values.length / 2 - 1] ≤ values[values.length / 2] :=
      hs.sortedLE.getElem_le_getElem_of_le (Nat.sub_le _ 1)
    simp only [hlower]
    constructor <;> linarith
  · have hlower : (values.length - 1) / 2 = values.length / 2 := by omega
    simp only [hlower]
    exact ⟨le_rfl, le_rfl⟩

theorem le_middle_of_mem_take (hs : values.Pairwise (· ≤ ·)) :
    ∀ x ∈ values.take ((values.length + 1) / 2), x ≤ middle values := by
  intro x hx
  obtain ⟨i, hi, rfl⟩ := List.mem_take_iff_getElem.1 hx
  have hle : values[i] ≤ values[(values.length - 1) / 2] :=
    hs.sortedLE.getElem_le_getElem_of_le (by omega)
  exact hle.trans (middle_between hs (by omega)).1

theorem middle_le_of_mem_drop (hs : values.Pairwise (· ≤ ·)) :
    ∀ x ∈ values.drop (values.length / 2), middle values ≤ x := by
  intro x hx
  obtain ⟨i, hi, rfl⟩ := List.mem_drop_iff_getElem.1 hx
  have hle : values[values.length / 2] ≤ values[values.length / 2 + i] :=
    hs.sortedLE.getElem_le_getElem_of_le (Nat.le_add_right _ i)
  exact (middle_between hs (by omega)).2.trans hle

theorem length_le_countP {β : Type} {p : β → Bool} {part whole : List β} (hpart : part.Sublist whole)
    (h : ∀ x ∈ part, p x) : part.length ≤ whole.countP p := by
  rw [← List.countP_eq_length.2 h]
  exact hpart.countP_le

theorem half_le_middle (values : List ℝ) :
    values.length ≤ 2 * values.countP (· ≤ middle (sorted values)) := by
  have hcount := length_le_countP (p := fun x => decide (x ≤ middle (sorted values)))
    (List.take_sublist _ _)
    fun x hx => decide_eq_true (le_middle_of_mem_take (pairwise_sorted values) x hx)
  rw [(sorted_perm values).countP_eq, List.length_take, (sorted_perm values).length_eq] at hcount
  omega

theorem half_middle_le (values : List ℝ) :
    values.length ≤ 2 * values.countP (middle (sorted values) ≤ ·) := by
  have hcount := length_le_countP (p := fun x => decide (middle (sorted values) ≤ x))
    (List.drop_sublist _ _)
    fun x hx => decide_eq_true (middle_le_of_mem_drop (pairwise_sorted values) x hx)
  rw [(sorted_perm values).countP_eq, List.length_drop, (sorted_perm values).length_eq] at hcount
  omega

end median

section squares

theorem sq_sum_le (values : List ℝ) :
    values.sum ^ 2 ≤ values.length * (values.map fun v => v * v).sum := by
  have hsquares :=
    sq_sum_le_card_mul_sum_sq (s := Finset.univ) (f := fun i : Fin values.length => values[i])
  simp only [sq] at hsquares ⊢
  simpa [Fin.sum_univ_fun_getElem values fun v => v * v] using hsquares

theorem sq_average_le (values : List ℝ) :
    average values ^ 2 ≤ average (values.map fun v => v * v) := by
  rcases eq_or_ne values [] with rfl | hne
  · simp [average_def]
  · have hlength : (0 : ℝ) < values.length := Nat.cast_pos.2 (List.length_pos_iff.2 hne)
    rw [average_def, average_def, List.length_map, div_pow, div_le_div_iff₀ (pow_pos hlength 2) hlength]
    calc
      values.sum ^ 2 * values.length
          ≤ values.length * (values.map fun v => v * v).sum * values.length :=
        mul_le_mul_of_nonneg_right (sq_sum_le values) hlength.le
      _ = (values.map fun v => v * v).sum * values.length ^ 2 := by ring

theorem rms_of_ne_nil (hne : values ≠ []) : rms values = √(average (values.map fun v => v * v)) :=
  if_neg (by rwa [List.isEmpty_iff])

theorem abs_average_le_rms (hne : values ≠ []) : |average values| ≤ rms values := by
  rw [rms_of_ne_nil hne]
  exact Real.abs_le_sqrt (sq_average_le values)

theorem rms_le (hne : values ≠ []) (h : ∀ x ∈ values, |x| ≤ m) : rms values ≤ m := by
  have hm : 0 ≤ m := by
    obtain ⟨x, hx⟩ := List.exists_mem_of_ne_nil values hne
    exact (abs_nonneg x).trans (h x hx)
  have hsquares : average (values.map fun v => v * v) ∈ Icc 0 (m * m) := by
    refine average_mem_Icc (by simpa using hne) ?_
    intro y hy
    obtain ⟨x, hx, rfl⟩ := List.mem_map.1 hy
    refine ⟨mul_self_nonneg x, ?_⟩
    rw [← abs_mul_abs_self x]
    exact mul_self_le_mul_self (abs_nonneg x) (h x hx)
  rw [rms_of_ne_nil hne]
  exact Real.sqrt_le_iff.2 ⟨hm, hsquares.2.trans (sq m).ge⟩

end squares

/-- What the figures of a list, and the root of the mean of its squares, tell of it. -/
structure Summary.Describes (s : Summary ℝ) (root : ℝ) (values : List ℝ) : Prop where
  max_greatest : IsGreatest {x | x ∈ values} s.max
  between : ∃ low, IsLeast {x | x ∈ values} low ∧ s.median ∈ Icc low s.max ∧ s.mean ∈ Icc low s.max
  half_le_median : values.length ≤ 2 * values.countP (· ≤ s.median)
  half_median_le : values.length ≤ 2 * values.countP (s.median ≤ ·)
  abs_mean_le : |s.mean| ≤ root
  root_le : ∃ top, IsGreatest ((|·|) '' {x | x ∈ values}) top ∧ root ≤ top

theorem exists_isLeast (hne : values ≠ []) : ∃ low, IsLeast {x | x ∈ values} low := by
  rw [← List.coe_toFinset]
  exact ⟨_, values.toFinset.isLeast_min' (by simpa using hne)⟩

theorem exists_isGreatest_abs (hne : values ≠ []) :
    ∃ top, IsGreatest ((|·|) '' {x | x ∈ values}) top := by
  have hvalues : (|·|) '' {x | x ∈ values} = {x | x ∈ values.map (|·|)} := by
    ext x
    simp
  rw [hvalues]
  exact ⟨_, Summary.max_greatest (by simpa using hne)⟩

theorem Summary.describes_ofValues (hne : values ≠ []) :
    (Summary.ofValues values).Describes (rms values) values := by
  obtain ⟨low, hlow⟩ := exists_isLeast hne
  obtain ⟨top, htop⟩ := exists_isGreatest_abs hne
  have hfigures := ofValues_of_ne_nil hne
  have hmean : (ofValues values).mean = average values := by rw [hfigures]
  have hmedian : (ofValues values).median = middle (sorted values) := by rw [hfigures]
  constructor
  · exact max_greatest hne
  · exact ⟨low, hlow, median_mem_Icc hne hlow.2, mean_mem_Icc hne hlow.2⟩
  · rw [hmedian]
    exact half_le_middle values
  · rw [hmedian]
    exact half_middle_le values
  · rw [hmean]
    exact abs_average_le_rms hne
  · exact ⟨top, htop, rms_le hne fun x hx => htop.2 ⟨x, hx, rfl⟩⟩

structure ColumnSummary.Describes (c : ColumnSummary ℝ) (values : List ℝ) : Prop where
  figures : Summary.Describes ⟨c.median, c.mean, c.max⟩ c.rmse values
  mean_le_rmse : c.mean ≤ c.rmse
  rmse_le_max : (∀ x ∈ values, 0 ≤ x) → c.rmse ≤ c.max

theorem ColumnSummary.describes_ofValues (hne : values ≠ []) :
    (ColumnSummary.ofValues values).Describes values := by
  have hfigures := Summary.describes_ofValues hne
  refine ⟨hfigures, (le_abs_self _).trans hfigures.abs_mean_le, fun hnonneg => ?_⟩
  refine rms_le hne fun x hx => ?_
  rw [abs_of_nonneg (hnonneg x hx)]
  exact hfigures.max_greatest.2 hx

section samples

theorem ErrorSummary.ofSamples_eq_ok {samples : List (ErrorSample ℝ)} (hne : samples ≠ []) :
    ∃ summary, ErrorSummary.ofSamples samples = .ok summary ∧
      summary.position.Describes (samples.map (·.positionError)) ∧
      summary.orientation.Describes (samples.map (·.orientationError)) := by
  refine ⟨_, if_neg (by rwa [List.isEmpty_iff]), ?_, ?_⟩
  · exact ColumnSummary.describes_ofValues (by simpa using hne)
  · exact ColumnSummary.describes_ofValues (by simpa using hne)

theorem ErrorSummary.ofSamples_eq_of_perm {samples samples' : List (ErrorSample ℝ)}
    (h : samples.Perm samples') : ErrorSummary.ofSamples samples = ErrorSummary.ofSamples samples' := by
  rw [ofSamples, ofSamples, h.isEmpty_eq, h.length_eq, ColumnSummary.ofValues_eq_of_perm (h.map _),
    ColumnSummary.ofValues_eq_of_perm (h.map _)]

theorem FrameSummary.ofSamples?_eq_some {samples : List (FrameDistanceSample ℝ)}
    (hne : samples ≠ []) :
    ∃ summary, FrameSummary.ofSamples? samples = some summary ∧
      summary.ssim.Describes (samples.map (·.ssim)) ∧
      summary.meanFeatureDistance.Describes (samples.map (·.meanFeatureDistance)) := by
  refine ⟨_, if_neg (by rwa [List.isEmpty_iff]), ?_, ?_⟩
  · exact ColumnSummary.describes_ofValues (by simpa using hne)
  · exact ColumnSummary.describes_ofValues (by simpa using hne)

theorem FrameSummary.ofSamples?_eq_of_perm {samples samples' : List (FrameDistanceSample ℝ)}
    (h : samples.Perm samples') :
    FrameSummary.ofSamples? samples = FrameSummary.ofSamples? samples' := by
  rw [ofSamples?, ofSamples?, h.isEmpty_eq, h.length_eq, ColumnSummary.ofValues_eq_of_perm (h.map _),
    ColumnSummary.ofValues_eq_of_perm (h.map _)]

end samples

/-- The figures of a list of numbers are those of its numbers in any order. So are the figures of the
error samples and of the frame distances of a run, of which there are some as soon as there is a sample,
and every column of them is described by its figures. -/
theorem summaries_describe :
    (∀ values values' : List ℝ, values.Perm values' →
      Summary.ofValues values = Summary.ofValues values' ∧ rms values = rms values') ∧
    (∀ values : List ℝ, values ≠ [] → (Summary.ofValues values).Describes (rms values) values) ∧
    (∀ samples samples' : List (ErrorSample ℝ), samples.Perm samples' →
      ErrorSummary.ofSamples samples = ErrorSummary.ofSamples samples') ∧
    (∀ samples : List (ErrorSample ℝ), samples ≠ [] → ∃ summary,
      ErrorSummary.ofSamples samples = .ok summary ∧
        summary.position.Describes (samples.map (·.positionError)) ∧
        summary.orientation.Describes (samples.map (·.orientationError))) ∧
    (∀ results results' : RunResults ℝ, results.frameDistances.Perm results'.frameDistances →
      results.frameSummary? = results'.frameSummary?) ∧
    ∀ results : RunResults ℝ, results.frameDistances ≠ [] → ∃ summary,
      results.frameSummary? = some summary ∧
        summary.ssim.Describes (results.frameDistances.map (·.ssim)) ∧
        summary.meanFeatureDistance.Describes
          (results.frameDistances.map (·.meanFeatureDistance)) :=
  ⟨fun _ _ h => ⟨Summary.ofValues_eq_of_perm h, rms_eq_of_perm h⟩,
    fun _ hne => Summary.describes_ofValues hne, fun _ _ h => ErrorSummary.ofSamples_eq_of_perm h,
    fun _ hne => ErrorSummary.ofSamples_eq_ok hne, fun _ _ h => FrameSummary.ofSamples?_eq_of_perm h,
    fun _ hne => FrameSummary.ofSamples?_eq_some hne⟩

noncomputable def twoSamples : List (ErrorSample ℝ) := [⟨0, 3.0, 0.0⟩, ⟨1, 4.0, 1.0⟩]

theorem summaries_describe_twoSamples :
    ∃ summary, ErrorSummary.ofSamples twoSamples = .ok summary ∧
      ErrorSummary.ofSamples twoSamples.reverse = .ok summary ∧
      summary.position.max = 4 ∧ summary.position.mean ≤ summary.position.rmse ∧
      summary.position.rmse ≤ 4 := by
  obtain ⟨-, -, hperm, hsamples, -, -⟩ := summaries_describe
  obtain ⟨summary, hok, hposition, -⟩ := hsamples twoSamples (List.cons_ne_nil _ _)
  have hpositions : twoSamples.map (·.positionError) = [3, 4] := by
    norm_num [twoSamples]
  rw [hpositions] at hposition
  have hfour : IsGreatest {x | x ∈ [3, 4]} (4 : ℝ) := by
    constructor
    · simp
    · intro x hx
      rcases List.mem_pair.1 hx with rfl | rfl <;> norm_num
  have hmax : summary.position.max = 4 := hposition.figures.max_greatest.unique hfour
  refine ⟨summary, hok, (hperm _ _ (List.reverse_perm _)).trans hok, hmax, hposition.mean_le_rmse, ?_⟩
  rw [← hmax]
  exact hposition.rmse_le_max (by simp)

end TrackingScore
