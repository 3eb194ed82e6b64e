import Mathlib.Algebra.Order.BigOperators.Group.Finset
import Mathlib.Algebra.Order.BigOperators.Ring.Finset
import Mathlib.Data.Fintype.BigOperators
import Mathlib.Data.Real.Basic
import Mathlib.Tactic.FieldSimp
import Mathlib.Tactic.Linarith
import Mathlib.Tactic.LinearCombination
import Mathlib.Tactic.Positivity

/-!
Means, variances and covariances of finite samples, by their definitions. The one-pass form of a
covariance needs sums of products only, and a covariance lies between the variances.
-/

namespace TrackingScore.Sample

open Finset

variable {ι : Type} [Fintype ι] (f g : ι → ℝ)

noncomputable def mean (f : ι → ℝ) : ℝ := (∑ i, f i) / Fintype.card ι

noncomputable def covariance (f g : ι → ℝ) : ℝ :=
  (∑ i, (f i - mean f) * (g i - mean g)) / (Fintype.card ι - 1)

section mean

variable {f} {a : ℝ}

theorem sum_eq_card_mul_mean [Nonempty ι] (f : ι → ℝ) : ∑ i, f i = Fintype.card ι * mean f := by
  have hcard : (Fintype.card ι : ℝ) ≠ 0 := Nat.cast_ne_zero.2 Fintype.card_ne_zero
  rw [mean, mul_div_cancel₀ _ hcard]

theorem mean_nonneg (h : ∀ i, 0 ≤ f i) : 0 ≤ mean f :=
  div_nonneg (sum_nonneg fun i _ => h i) (Nat.cast_nonneg _)

variable [Nonempty ι]

theorem mean_le (h : ∀ i, f i ≤ a) : mean f ≤ a := by
  have hcard : (0 : ℝ) < Fintype.card ι := Nat.cast_pos.2 Fintype.card_pos
  have hsum : ∑ i, f i ≤ ∑ _i : ι, a := sum_le_sum fun i _ => h i
  rw [sum_const, card_univ, nsmul_eq_mul] at hsum
  rw [mean, div_le_iff₀' hcard]
  exact hsum

theorem lt_mean (h : ∀ i, a < f i) : a < mean f := by
  have hcard : (0 : ℝ) < Fintype.card ι := Nat.cast_pos.2 Fintype.card_pos
  have hsum : ∑ _i : ι, a < ∑ i, f i := sum_lt_sum_of_nonempty univ_nonempty fun i _ => h i
  rw [sum_const, card_univ, nsmul_eq_mul] at hsum
  rw [mean, lt_div_iff₀' hcard]
  exact hsum

theorem mean_eq_iff (h : ∀ i, f i ≤ a) : mean f = a ↔ ∀ i, f i = a := by
  have hcard : (Fintype.card ι : ℝ) ≠ 0 := Nat.cast_ne_zero.2 Fintype.card_ne_zero
  have hsum : ∑ i, f i = ∑ _i : ι, a ↔ ∀ i ∈ univ, f i = a :=
    sum_eq_sum_iff_of_le fun i _ => h i
  rw [sum_const, card_univ, nsmul_eq_mul] at hsum
  rw [mean, div_eq_iff hcard, mul_comm a, hsum]
  simp

end mean

section covariance

theorem covariance_comm : covariance f g = covariance g f := by
  simp only [covariance, mul_comm]

variable [Nonempty ι]

theorem sum_centered_mul :
    ∑ i, (f i - mean f) * (g i - mean g) =
      ∑ i, f i * g i - Fintype.card ι * (mean f * mean g) := by
  have hexpand (i : ι) : (f i - mean f) * (g i - mean g) =
      f i * g i - mean f * g i - mean g * f i + mean f * mean g := by
    ring
  simp only [hexpand, sum_add_distrib, sum_sub_distrib, ← mul_sum, sum_const, card_univ,
    nsmul_eq_mul, sum_eq_card_mul_mean]
  ring

theorem covariance_eq :
    covariance f g = (Fintype.card ι : ℝ) / (Fintype.card ι - 1) *
      (mean (fun i => f i * g i) - mean f * mean g) := by
  rw [covariance, sum_centered_mul, sum_eq_card_mul_mean]
  ring

omit [Nonempty ι] in
theorem covariance_add_covariance_sub :
    covariance f f + covariance g g - 2 * covariance f g =
      (∑ i, ((f i - mean f) - (g i - mean g)) ^ 2) / (Fintype.card ι - 1) := by
  have hexpand (i : ι) : ((f i - mean f) - (g i - mean g)) ^ 2 =
      (f i - mean f) * (f i - mean f) + (g i - mean g) * (g i - mean g) -
        2 * ((f i - mean f) * (g i - mean g)) := by
    ring
  simp only [covariance, hexpand, sum_add_distrib, sum_sub_distrib, ← mul_sum]
  ring

omit [Nonempty ι] in
theorem mean_neg : mean (fun i => -g i) = -mean g := by
  rw [mean, mean, sum_neg_distrib, neg_div]

omit [Nonempty ι] in
theorem covariance_neg : covariance f (fun i => -g i) = -covariance f g := by
  have hfactor (i : ι) :
      (f i - mean f) * (-g i - -mean g) = -((f i - mean f) * (g i - mean g)) := by
    ring
  simp only [covariance, mean_neg, hfactor, sum_neg_distrib, neg_div]

end covariance

section bounds

variable {f g} (h : 1 < Fintype.card ι)
include h

theorem card_sub_one_pos : (0 : ℝ) < Fintype.card ι - 1 := by
  have hcard : (1 : ℝ) < Fintype.card ι := Nat.one_lt_cast.2 h
  linarith

theorem covariance_self_nonneg : 0 ≤ covariance f f :=
  div_nonneg (sum_nonneg fun _ _ => mul_self_nonneg _) (card_sub_one_pos h).le

theorem two_mul_covariance_le : 2 * covariance f g ≤ covariance f f + covariance g g := by
  have hsquares : 0 ≤ ∑ i, ((f i - mean f) - (g i - mean g)) ^ 2 :=
    sum_nonneg fun _ _ => sq_nonneg _
  have hdifference := covariance_add_covariance_sub f g
  have hnonneg := div_nonneg hsquares (card_sub_one_pos h).le
  linarith

theorem neg_le_two_mul_covariance :
    -(covariance f f + covariance g g) ≤ 2 * covariance f g := by
  have hneg := two_mul_covariance_le h (f := f) (g := fun i => -g i)
  have hself : covariance (fun i => -g i) (fun i => -g i) = covariance g g := by
    rw [covariance_neg, covariance_comm, covariance_neg, neg_neg]
  rw [hself, covariance_neg] at hneg
  linarith

/-- Samples that vary together as much as each one does by itself differ by a constant, which is the
difference of their means. -/
theorem eq_of_two_mul_covariance_eq (hmean : mean f = mean g)
    (hcovariance : 2 * covariance f g = covariance f f + covariance g g) : f = g := by
  have hdifference := covariance_add_covariance_sub f g
  rw [hcovariance, sub_self, eq_comm, div_eq_zero_iff,
    or_iff_left (card_sub_one_pos h).ne', sum_eq_zero_iff_of_nonneg fun _ _ => sq_nonneg _]
    at hdifference
  funext i
  have hterm := pow_eq_zero_iff two_ne_zero |>.1 (hdifference i (mem_univ i))
  rw [hmean] at hterm
  linarith

end bounds

end TrackingScore.Sample
