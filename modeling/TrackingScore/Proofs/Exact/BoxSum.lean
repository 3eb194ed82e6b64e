import Mathlib.Algebra.BigOperators.Fin
import TrackingScore.Image.BlockSum
import TrackingScore.Image.SummedArea
import TrackingScore.Proofs.Exact.Scalar

/-!
Sums of grids and rows with exact numbers. An entry of a summed-area table is the sum of the cells
above and to the left of it, four entries give the sum of a box, and lanes do not change a sum.
-/

namespace TrackingScore

open Finset

section rows

theorem foldl_add (xs : List ℝ) (a : ℝ) : xs.foldl (· + ·) a = a + xs.sum := by
  induction xs generalizing a with
  | nil => rw [List.foldl_nil, List.sum_nil, add_zero]
  | cons x xs ih => rw [List.foldl_cons, ih, List.sum_cons, add_assoc]

theorem blockSumFrom_eq (lanes : Lanes ℝ) (row : List ℝ) :
    blockSumFrom lanes row = lanes.join + row.sum := by
  fun_induction blockSumFrom lanes row with
  | case1 lanes a b c d e f g h rest ih =>
    rw [ih]
    simp only [Lanes.join, List.sum_cons]
    ring
  | case2 lanes rest => exact foldl_add rest lanes.join

theorem blockSum_eq (row : List ℝ) : blockSum row = row.sum := by
  have hzero : (Lanes.zero : Lanes ℝ).join = 0 := by
    simp only [Lanes.join, Lanes.zero]
    norm_num
  rw [blockSum, blockSumFrom_eq, hzero, zero_add]

end rows

variable {h w : ℕ}

theorem getElem_runningSums (row : Vector ℝ w) (n : ℕ) (hn : n ≤ w) (c : ℕ) (hc : c < n + 1) :
    (runningSums row n hn)[c] = ∑ j : Fin c, row[j.val] := by
  induction n generalizing c with
  | zero =>
    obtain rfl : c = 0 := by omega
    rw [Fin.sum_univ_zero]
    exact zero_decimal
  | succ n ih =>
    simp only [runningSums, Vector.getElem_push]
    split
    · exact ih _ _ _
    · obtain rfl : c = n + 1 := by omega
      rw [Fin.sum_univ_castSucc]
      exact congrArg (· + row[n]) (ih _ _ _)

theorem getElem_summedRows (cells : Grid ℝ h w) (n : ℕ) (hn : n ≤ h) (r c : ℕ) (hr : r < n + 1)
    (hc : c < w + 1) :
    (summedRows cells n hn)[r][c] = ∑ i : Fin r, ∑ j : Fin c, cells[i.val][j.val] := by
  induction n generalizing r with
  | zero =>
    obtain rfl : r = 0 := by omega
    rw [Fin.sum_univ_zero]
    simp only [summedRows, Vector.getElem_replicate]
    exact zero_decimal
  | succ n ih =>
    simp only [summedRows, Vector.getElem_push]
    split
    · exact ih _ _ _
    · obtain rfl : r = n + 1 := by omega
      rw [Fin.sum_univ_castSucc, Vector.getElem_zipWith, getElem_runningSums]
      exact congrArg (· + _) (ih _ _ _)

def Grid.block {β : Type} (g : Grid β h w) (r c n : ℕ) (hr : r + n ≤ h) (hc : c + n ≤ w) :
    Fin n × Fin n → β :=
  fun p => g[r + p.1.val][c + p.2.val]

/-- The four entries leave of the sums above and to the left of the box nothing behind. -/
theorem boxSum_summedArea (cells : Grid ℝ h w) (r c n : ℕ) (hr : r + n ≤ h) (hc : c + n ≤ w) :
    boxSum (summedArea cells) r c n hr hc = ∑ p, cells.block r c n hr hc p := by
  have hbox : boxSum (summedArea cells) r c n hr hc =
      (∑ i : Fin (r + n), ∑ j : Fin (c + n), cells[i.val][j.val]) -
        (∑ i : Fin r, ∑ j : Fin (c + n), cells[i.val][j.val]) -
        (∑ i : Fin (r + n), ∑ j : Fin c, cells[i.val][j.val]) +
        ∑ i : Fin r, ∑ j : Fin c, cells[i.val][j.val] := by
    rw [boxSum]
    simp only [summedArea, getElem_summedRows]
  rw [hbox, Fintype.sum_prod_type]
  simp only [Grid.block, Fin.sum_univ_add, Fin.val_castAdd, Fin.val_natAdd, sum_add_distrib]
  ring

end TrackingScore
