import TrackingScore.Proofs.WindowSimilarity

/-!
The range of structural similarity. No score exceeds one, which only equal images reach, and none is
as low as minus one. No window, channel or pixel is lost on the way from the images to the score.
-/

namespace TrackingScore

open Sample

variable {h w : ℕ}

namespace Ssim

variable {ι : Type} [Fintype ι] {s : Ssim ℝ} {f g : ι → ℝ}

theorem similarityOf_comm (s : Ssim ℝ) (f g : ι → ℝ) :
    s.similarityOf f g = s.similarityOf g f := by
  rw [similarityOf, similarityOf, mul_comm (mean f), covariance_comm f g, add_comm (mean f ^ 2),
    add_comm (covariance f f)]

structure Stable (s : Ssim ℝ) : Prop where
  k1_ne : s.k1 * s.dataRange ≠ 0
  k2_ne : s.k2 * s.dataRange ≠ 0

section quotient

variable {a b c d : ℝ}

/-- A similarity is a quotient of this form: both factors of the divisor are positive, and each one
bounds its factor of the numerator, the second one from both sides. -/
theorem mul_div_mul_mem_Ioc (ha : 0 < a) (hac : a ≤ c) (hd : 0 < d) (hdb : -d < b) (hbd : b ≤ d) :
    a * b / (c * d) ∈ Set.Ioc (-1 : ℝ) 1 := by
  have hc : 0 < c := ha.trans_le hac
  have hupper : a * b ≤ c * d :=
    (mul_le_mul_of_nonneg_left hbd ha.le).trans (mul_le_mul_of_nonneg_right hac hd.le)
  have hlower : -(c * d) < a * b := by
    have hb : a * -d < a * b := mul_lt_mul_of_pos_left hdb ha
    have hcd : a * d ≤ c * d := mul_le_mul_of_nonneg_right hac hd.le
    linarith
  constructor
  · rw [lt_div_iff₀ (mul_pos hc hd)]
    linarith
  · rw [div_le_one (mul_pos hc hd)]
    exact hupper

theorem mul_div_mul_eq_one_iff (ha : 0 < a) (hac : a ≤ c) (hd : 0 < d) (hbd : b ≤ d) :
    a * b / (c * d) = 1 ↔ a = c ∧ b = d := by
  have hc : 0 < c := ha.trans_le hac
  rw [div_eq_one_iff_eq (mul_pos hc hd).ne']
  constructor
  · intro heq
    have hb : a * b ≤ a * d := mul_le_mul_of_nonneg_left hbd ha.le
    have had : a * d ≤ c * d := mul_le_mul_of_nonneg_right hac hd.le
    have hac' : a * d = c * d := le_antisymm had (heq ▸ hb)
    have hbd' : a * b = a * d := heq.trans hac'.symm
    exact ⟨mul_right_cancel₀ hd.ne' hac', mul_left_cancel₀ ha.ne' hbd'⟩
  · rintro ⟨rfl, rfl⟩
    rfl

end quotient

section samples

variable (hs : s.Stable) (hcard : 1 < Fintype.card ι)
include hs

theorem Stable.luminance_pos (hf : ∀ i, 0 ≤ f i) (hg : ∀ i, 0 ≤ g i) :
    0 < 2 • (mean f * mean g) + (s.k1 * s.dataRange) ^ 2 :=
  add_pos_of_nonneg_of_pos (nsmul_nonneg (mul_nonneg (mean_nonneg hf) (mean_nonneg hg)) 2)
    (sq_pos_of_ne_zero hs.k1_ne)

theorem Stable.squares_pos (f g : ι → ℝ) :
    0 < mean f ^ 2 + mean g ^ 2 + (s.k1 * s.dataRange) ^ 2 :=
  add_pos_of_nonneg_of_pos (add_nonneg (sq_nonneg _) (sq_nonneg _)) (sq_pos_of_ne_zero hs.k1_ne)

omit hs in
theorem luminance_le (s : Ssim ℝ) (f g : ι → ℝ) :
    2 • (mean f * mean g) + (s.k1 * s.dataRange) ^ 2 ≤
      mean f ^ 2 + mean g ^ 2 + (s.k1 * s.dataRange) ^ 2 := by
  rw [two_nsmul]
  linarith [two_mul_le_add_sq (mean f) (mean g)]

include hcard

theorem Stable.contrast_pos :
    0 < covariance f f + covariance g g + (s.k2 * s.dataRange) ^ 2 :=
  add_pos_of_nonneg_of_pos
    (add_nonneg (covariance_self_nonneg hcard) (covariance_self_nonneg hcard))
    (sq_pos_of_ne_zero hs.k2_ne)

omit hs in
theorem contrast_le (s : Ssim ℝ) :
    2 • covariance f g + (s.k2 * s.dataRange) ^ 2 ≤
      covariance f f + covariance g g + (s.k2 * s.dataRange) ^ 2 := by
  rw [two_nsmul]
  linarith [two_mul_covariance_le hcard (f := f) (g := g)]

theorem Stable.neg_contrast_lt :
    -(covariance f f + covariance g g + (s.k2 * s.dataRange) ^ 2) <
      2 • covariance f g + (s.k2 * s.dataRange) ^ 2 := by
  rw [two_nsmul]
  linarith [neg_le_two_mul_covariance hcard (f := f) (g := g), sq_pos_of_ne_zero hs.k2_ne]

variable (hf : ∀ i, 0 ≤ f i) (hg : ∀ i, 0 ≤ g i)
include hf hg

theorem Stable.similarityOf_mem_Ioc : s.similarityOf f g ∈ Set.Ioc (-1 : ℝ) 1 :=
  mul_div_mul_mem_Ioc (hs.luminance_pos hf hg) (luminance_le s f g) (hs.contrast_pos hcard)
    (hs.neg_contrast_lt hcard) (contrast_le hcard s)

theorem Stable.similarityOf_eq_one_iff : s.similarityOf f g = 1 ↔ f = g := by
  rw [similarityOf, mul_div_mul_eq_one_iff (hs.luminance_pos hf hg) (luminance_le s f g)
    (hs.contrast_pos hcard) (contrast_le hcard s)]
  constructor
  · rintro ⟨hluminance, hcontrast⟩
    rw [two_nsmul] at hluminance hcontrast
    have hsquare : (mean f - mean g) ^ 2 = 0 := by linarith
    have hmean : mean f = mean g := sub_eq_zero.1 (pow_eq_zero_iff two_ne_zero |>.1 hsquare)
    exact eq_of_two_mul_covariance_eq hcard hmean (by linarith)
  · rintro rfl
    constructor <;> ring

end samples
end Ssim

section coverage

variable {x y : Grid Pixel h w}

theorem Pixel.eq_of_level_eq {p q : Pixel} (hall : ∀ k, p.level k = q.level k) : p = q := by
  have hred : (p.r.toNat : ℝ) = q.r.toNat := hall 0
  have hgreen : (p.g.toNat : ℝ) = q.g.toNat := hall 1
  have hblue : (p.b.toNat : ℝ) = q.b.toNat := hall 2
  rw [Nat.cast_inj, UInt8.toNat_inj] at hred hgreen hblue
  obtain ⟨r, g, b⟩ := p
  cases hred
  cases hgreen
  cases hblue
  rfl

theorem eq_of_levels_eq {n : ℕ} (hn : 0 < n) (hh : n ≤ h) (hw : n ≤ w)
    (hall : ∀ k r c hr hc, x.levels k r c n hr hc = y.levels k r c n hr hc) : x = y := by
  apply Vector.ext
  intro i hi
  apply Vector.ext
  intro j hj
  apply Pixel.eq_of_level_eq
  intro k
  have hr : min i (h - n) + n ≤ h := by omega
  have hc : min j (w - n) + n ≤ w := by omega
  have hlevels := congrFun (hall k _ _ hr hc)
    (⟨i - min i (h - n), by omega⟩, ⟨j - min j (w - n), by omega⟩)
  have hrow : min i (h - n) + (i - min i (h - n)) = i := by omega
  have hcol : min j (w - n) + (j - min j (w - n)) = j := by omega
  simpa only [Grid.levels, Grid.block, hrow, hcol] using hlevels

theorem levels_nonneg (image : Grid Pixel h w) (k : Fin 3) (r c n : ℕ) (hr : r + n ≤ h)
    (hc : c + n ≤ w) (p : Fin n × Fin n) : 0 ≤ image.levels k r c n hr hc p :=
  Nat.cast_nonneg _

end coverage

namespace Ssim

section images

variable {s : Ssim ℝ} {n : ℕ}

theorem exists_effectiveWindow? (hwindow : 3 ≤ s.windowSize) (hh : 3 ≤ h) (hw : 3 ≤ w) :
    ∃ n, s.effectiveWindow? h w = some n :=
  ⟨_, if_neg (by omega)⟩

theorem one_lt_card_window (hn : 3 ≤ n) : 1 < Fintype.card (Fin n × Fin n) := by
  rw [Fintype.card_prod, Fintype.card_fin]
  nlinarith

theorem pixelMap_comm (s : Ssim ℝ) (hn : 0 < n) (hh : n ≤ h) (hw : n ≤ w) (x y : Grid Pixel h w) :
    s.pixelMap x y n hh hw = s.pixelMap y x n hh hw := by
  apply Vector.ext
  intro r hr
  apply Vector.ext
  intro c hc
  rw [getElem_pixelMap s x y n hn, getElem_pixelMap s y x n hn]
  exact congrArg mean (funext fun k => s.similarityOf_comm _ _)

variable (hs : s.Stable) (hn : 3 ≤ n) (hh : n ≤ h) (hw : n ≤ w) (x y : Grid Pixel h w)
include hs hn

theorem Stable.cell_mem_Ioc (p : Fin (h - n + 1) × Fin (w - n + 1)) :
    (s.pixelMap x y n hh hw).cell p ∈ Set.Ioc (-1 : ℝ) 1 := by
  have hr := window_le hh p.1.isLt
  have hc := window_le hw p.2.isLt
  have hmem (k : Fin 3) := hs.similarityOf_mem_Ioc (one_lt_card_window hn)
    (levels_nonneg x k p.1 p.2 n hr hc) (levels_nonneg y k p.1 p.2 n hr hc)
  rw [Grid.cell, Fin.getElem_fin, Fin.getElem_fin, getElem_pixelMap s x y n (by omega)]
  exact ⟨lt_mean fun k => (hmem k).1, mean_le fun k => (hmem k).2⟩

theorem Stable.cell_eq_one_iff (r c : ℕ) (hr : r < h - n + 1) (hc : c < w - n + 1) :
    (s.pixelMap x y n hh hw).cell (⟨r, hr⟩, ⟨c, hc⟩) = 1 ↔
      ∀ k, x.levels k r c n (window_le hh hr) (window_le hw hc) =
        y.levels k r c n (window_le hh hr) (window_le hw hc) := by
  have hcard := one_lt_card_window hn
  have hx (k : Fin 3) := levels_nonneg x k r c n (window_le hh hr) (window_le hw hc)
  have hy (k : Fin 3) := levels_nonneg y k r c n (window_le hh hr) (window_le hw hc)
  rw [Grid.cell, Fin.getElem_fin, Fin.getElem_fin, getElem_pixelMap s x y n (by omega),
    mean_eq_iff fun k => (hs.similarityOf_mem_Ioc hcard (hx k) (hy k)).2]
  exact forall_congr' fun k => hs.similarityOf_eq_one_iff hcard (hx k) (hy k)

theorem Stable.forall_cell_eq_one_iff :
    (∀ p, (s.pixelMap x y n hh hw).cell p = 1) ↔ x = y := by
  constructor
  · intro hone
    apply eq_of_levels_eq (by omega) hh hw
    intro k r c hr hc
    have hr' : r < h - n + 1 := by omega
    have hc' : c < w - n + 1 := by omega
    exact (hs.cell_eq_one_iff hn hh hw x y r c hr' hc').1 (hone (⟨r, hr'⟩, ⟨c, hc'⟩)) k
  · rintro rfl p
    exact (hs.cell_eq_one_iff hn hh hw x x _ _ p.1.isLt p.2.isLt).2 fun _ => rfl

theorem Stable.window_divisor_pos (part : Pixel → UInt8) (r c : ℕ) (hr : r + n ≤ h)
    (hc : c + n ≤ w) :
    0 < s.divisor (Scalar.ofNat (n * n))
      (windowMoments (channel part x) (channel part y) r c n hr hc) := by
  have hcard := one_lt_card_window hn
  have : Nonempty (Fin n × Fin n) := Fintype.card_pos_iff.1 (by omega)
  rw [ofNat_side, windowMoments_eq, divisor_momentsOf]
  exact mul_pos (hs.squares_pos _ _) (hs.contrast_pos hcard)

/-- Nothing is divided by zero on the way from two images to their score: no sum over a window by
the number of its cells or one less, no score of a window, no sum over the rows or the columns of
the map. -/
structure DividesByNonzero (s : Ssim ℝ) (x y : Grid Pixel h w) (n : ℕ) : Prop where
  cells : (Scalar.ofNat (n * n) : ℝ) ≠ 0
  fewerCells : (Scalar.ofNat (n * n) : ℝ) - 1 ≠ 0
  window : ∀ (part : Pixel → UInt8) (r c : ℕ) (hr : r + n ≤ h) (hc : c + n ≤ w),
    s.divisor (Scalar.ofNat (n * n))
      (windowMoments (channel part x) (channel part y) r c n hr hc) ≠ 0
  rows : (Scalar.ofNat (h - n + 1) : ℝ) ≠ 0
  columns : (Scalar.ofNat (w - n + 1) : ℝ) ≠ 0

omit hs hn in
theorem ofNat_ne_zero (hn : n ≠ 0) : (Scalar.ofNat n : ℝ) ≠ 0 := by
  rw [Scalar.ofNat_def]
  exact Nat.cast_ne_zero.2 hn

theorem Stable.dividesByNonzero : s.DividesByNonzero x y n where
  cells := ofNat_ne_zero (by positivity)
  fewerCells := by
    rw [ofNat_side]
    exact (card_sub_one_pos (one_lt_card_window hn)).ne'
  window part r c hr hc := (hs.window_divisor_pos hn x y part r c hr hc).ne'
  rows := ofNat_ne_zero (Nat.succ_ne_zero _)
  columns := ofNat_ne_zero (Nat.succ_ne_zero _)

end images

/-- The score of two images and every entry of their map lie above minus one and reach one at most.
The score does not depend on the order of the images and is one exactly if they are equal, pixel by
pixel, and nothing is divided by zero on the way. -/
theorem compute_mem_Ioc (s : Ssim ℝ) (hk1 : s.k1 * s.dataRange ≠ 0) (hk2 : s.k2 * s.dataRange ≠ 0)
    (hwindow : 3 ≤ s.windowSize) (hh : 3 ≤ h) (hw : 3 ≤ w) (x y : Grid Pixel h w) :
    ∃ (n : ℕ) (map : Grid ℝ (h - n + 1) (w - n + 1)) (score : ℝ),
      s.effectiveWindow? h w = some n ∧
      s.computeMap ⟨h, w, x⟩ ⟨h, w, y⟩ = .ok ⟨_, _, map⟩ ∧
      s.compute ⟨h, w, x⟩ ⟨h, w, y⟩ = .ok score ∧
      s.compute ⟨h, w, y⟩ ⟨h, w, x⟩ = .ok score ∧
      (∀ p, map.cell p ∈ Set.Ioc (-1 : ℝ) 1) ∧
      score ∈ Set.Ioc (-1 : ℝ) 1 ∧
      (score = 1 ↔ x = y) ∧
      s.DividesByNonzero x y n := by
  have hs : s.Stable := ⟨hk1, hk2⟩
  obtain ⟨n, hwin⟩ := exists_effectiveWindow? hwindow hh hw
  obtain ⟨hpos, hnh, hnw⟩ := effectiveWindow?_le hwin
  have hn := three_le_effectiveWindow? hwin
  have hcell := hs.cell_mem_Ioc hn hnh hnw x y
  refine ⟨n, s.pixelMap x y n hnh hnw, _, hwin, s.computeMap_mk x y hwin,
    s.compute_mk x y hwin hnh hnw, ?_, hcell, ?_, ?_, hs.dividesByNonzero hn x y⟩
  · rw [s.pixelMap_comm hpos hnh hnw x y]
    exact s.compute_mk y x hwin hnh hnw
  · exact ⟨lt_mean fun p => (hcell p).1, mean_le fun p => (hcell p).2⟩
  · rw [mean_eq_iff fun p => (hcell p).2]
    exact hs.forall_cell_eq_one_iff hn hnh hnw x y

theorem compute_mem_Ioc_dotted :
    (default : Ssim ℝ).k1 * (default : Ssim ℝ).dataRange ≠ 0 ∧
      (default : Ssim ℝ).k2 * (default : Ssim ℝ).dataRange ≠ 0 ∧
      ∃ score : ℝ, default.compute ⟨3, 4, dotted⟩ ⟨3, 4, black⟩ = .ok score ∧
        default.compute ⟨3, 4, black⟩ ⟨3, 4, dotted⟩ = .ok score ∧ -1 < score ∧ score < 1 := by
  have hk1 : (default : Ssim ℝ).k1 * (default : Ssim ℝ).dataRange ≠ 0 := by
    simp only [default]
    norm_num
  have hk2 : (default : Ssim ℝ).k2 * (default : Ssim ℝ).dataRange ≠ 0 := by
    simp only [default]
    norm_num
  have hne : dotted ≠ black := by decide
  obtain ⟨_, _, score, _, _, hforward, hbackward, _, hmem, hone, _⟩ :=
    compute_mem_Ioc default hk1 hk2 (by decide) (le_refl 3) (by decide) dotted black
  have hscore : score ≠ 1 := fun heq => hne (hone.1 heq)
  exact ⟨hk1, hk2, score, hforward, hbackward, hmem.1, lt_of_le_of_ne hmem.2 hscore⟩

end Ssim
end TrackingScore
