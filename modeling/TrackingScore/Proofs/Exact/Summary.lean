import Mathlib.Algebra.Order.BigOperators.Group.List
import Mathlib.Data.List.GetD
import Mathlib.Order.Interval.Set.Basic
import Mathlib.Tactic.Linarith
import TrackingScore.Proofs.Exact.BoxSum
import TrackingScore.Proofs.LawfulScalar
import TrackingScore.Statistics

/-!
Figures of lists of exact numbers. Sorting puts them in order, the last one of them is the greatest,
and median and mean lie where all the numbers lie.
-/

namespace TrackingScore

open Scalar Set

variable {values : List ℝ} {low high : ℝ}

theorem total_eq (xs : List ℝ) : total xs = xs.sum := by
  have hzero : (-0.0 : ℝ) = 0 := by norm_num
  rw [total, foldl_add]
  exact (congrArg (· + xs.sum) hzero).trans (zero_add _)

theorem average_def (values : List ℝ) : average values = values.sum / values.length := by
  rw [average, total_eq, ofNat_def]

section sorted

theorem sorted_perm (values : List ℝ) : (sorted values).Perm values :=
  List.mergeSort_perm _ _

theorem pairwise_sorted (values : List ℝ) : (sorted values).Pairwise (· ≤ ·) := by
  have hsorted := List.pairwise_mergeSort LawfulScalar.sortsBefore_trans
    LawfulScalar.sortsBefore_total values
  refine hsorted.imp ?_
  simp [sortsBefore, isNaN, same, atMost]

theorem sorted_ne_nil (h : values ≠ []) : sorted values ≠ [] :=
  fun hnil => h (List.Perm.nil_eq (hnil ▸ sorted_perm values)).symm

end sorted

section bounds

theorem average_mem_Icc (hne : values ≠ []) (h : ∀ x ∈ values, x ∈ Icc low high) :
    average values ∈ Icc low high := by
  have hlength : (0 : ℝ) < values.length := Nat.cast_pos.2 (List.length_pos_iff.2 hne)
  have hlow := List.card_nsmul_le_sum values low fun x hx => (h x hx).1
  have hhigh := List.sum_le_card_nsmul values high fun x hx => (h x hx).2
  rw [nsmul_eq_mul] at hlow hhigh
  rw [average_def]
  exact ⟨(le_div_iff₀' hlength).2 hlow, (div_le_iff₀' hlength).2 hhigh⟩

theorem middle_mem_Icc (hne : values ≠ []) (h : ∀ x ∈ values, x ∈ Icc low high) :
    middle values ∈ Icc low high := by
  have hlength := List.length_pos_iff.2 hne
  have hget {i : Nat} (hi : i < values.length) : values.getD i 0.0 ∈ Icc low high := by
    rw [List.getD_eq_getElem values _ hi]
    exact h _ (List.getElem_mem hi)
  have hupper := hget (i := values.length / 2) (by omega)
  rw [middle]
  split_ifs
  · have hlower := hget (i := values.length / 2 - 1) (by omega)
    obtain ⟨hlow, hhigh⟩ := hlower
    obtain ⟨hlow', hhigh'⟩ := hupper
    constructor <;> linarith
  · exact hupper

end bounds

theorem greatest_sorted (hne : values ≠ []) :
    IsGreatest {x | x ∈ values} ((sorted values).getLastD 0.0) := by
  have hsorted := sorted_ne_nil hne
  rw [List.getLastD_eq_getLast?, List.getLast?_eq_some_getLast hsorted, Option.getD_some]
  constructor
  · exact (sorted_perm values).mem_iff.1 (List.getLast_mem hsorted)
  · exact fun x hx => (pairwise_sorted values).rel_getLast ((sorted_perm values).mem_iff.2 hx)

namespace Summary

theorem ofValues_nil : (ofValues [] : Summary ℝ) = ⟨0, 0, 0⟩ := by
  rw [ofValues, List.isEmpty_nil, if_pos rfl, zero_decimal]

theorem ofValues_of_ne_nil (h : values ≠ []) : ofValues values =
    ⟨middle (sorted values), average values, (sorted values).getLastD 0.0⟩ :=
  if_neg (by rwa [List.isEmpty_iff])

theorem max_greatest (h : values ≠ []) : IsGreatest {x | x ∈ values} (ofValues values).max := by
  rw [ofValues_of_ne_nil h]
  exact greatest_sorted h

theorem median_mem_Icc (hne : values ≠ []) (hlow : ∀ x ∈ values, low ≤ x) :
    (ofValues values).median ∈ Icc low (ofValues values).max := by
  have hmax := max_greatest hne
  rw [ofValues_of_ne_nil hne] at hmax ⊢
  refine middle_mem_Icc (sorted_ne_nil hne) fun x hx => ?_
  have hx := (sorted_perm values).mem_iff.1 hx
  exact ⟨hlow x hx, hmax.2 hx⟩

theorem mean_mem_Icc (hne : values ≠ []) (hlow : ∀ x ∈ values, low ≤ x) :
    (ofValues values).mean ∈ Icc low (ofValues values).max := by
  have hmax := max_greatest hne
  rw [ofValues_of_ne_nil hne] at hmax ⊢
  exact average_mem_Icc hne fun x hx => ⟨hlow x hx, hmax.2 hx⟩

theorem ofValues_eq_zero (h : ∀ x ∈ values, x = 0) : ofValues values = ⟨0, 0, 0⟩ := by
  rcases eq_or_ne values [] with rfl | hne
  · exact ofValues_nil
  · have hmax : (ofValues values).max = 0 := h _ (max_greatest hne).1
    have hmedian := median_mem_Icc hne fun x hx => (h x hx).ge
    have hmean := mean_mem_Icc hne fun x hx => (h x hx).ge
    rw [hmax, Icc_self, mem_singleton_iff] at hmedian hmean
    calc ofValues values
        = ⟨(ofValues values).median, (ofValues values).mean, (ofValues values).max⟩ := rfl
      _ = ⟨0, 0, 0⟩ := by rw [hmedian, hmean, hmax]

theorem ofValues_mem_Icc (hhigh : 0 ≤ high) (h : ∀ x ∈ values, x ∈ Icc 0 high) :
    (ofValues values).median ∈ Icc 0 (ofValues values).max ∧
      (ofValues values).mean ∈ Icc 0 (ofValues values).max ∧ (ofValues values).max ≤ high := by
  rcases eq_or_ne values [] with rfl | hne
  · rw [ofValues_nil]
    exact ⟨left_mem_Icc.2 le_rfl, left_mem_Icc.2 le_rfl, hhigh⟩
  · exact ⟨median_mem_Icc hne fun x hx => (h x hx).1, mean_mem_Icc hne fun x hx => (h x hx).1,
      (h _ (max_greatest hne).1).2⟩

end Summary
end TrackingScore
