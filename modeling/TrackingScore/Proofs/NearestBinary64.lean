import Mathlib.Algebra.Order.Field.Power
import Mathlib.Algebra.Order.Floor.Ring
import Mathlib.Algebra.Order.Ring.Rat
import Mathlib.Data.Int.Log
import Mathlib.Data.Nat.Cast.Field
import Mathlib.Data.Rat.Floor
import Mathlib.Tactic.FieldSimp
import Mathlib.Tactic.Linarith
import Mathlib.Tactic.Ring

/-!
The nearest binary64 number to a rational one, with no bound on exponents above. The numbers of the
format that matter for it are multiples of one power of two, and among those the nearest is an
integer rounded to an even one from half way.
-/

namespace TrackingScore

/-- An integer below `2 ^ bits` in magnitude, times a power of two that binary64 has with so many
bits. -/
def Representable (bits : ℕ) (x : ℚ) : Prop :=
  ∃ m e : ℤ, |m| < 2 ^ bits ∧ -1021 - (bits : ℤ) ≤ e ∧ x = m * 2 ^ e

/-- No binary64 number is nearer, and of two equally near ones this has an even significand, which is
one bit shorter. -/
structure NearestBinary64 (x v : ℚ) : Prop where
  representable : Representable 53 v
  nearest : ∀ w, Representable 53 w → w ≠ v →
    |x - v| < |x - w| ∨ |x - v| = |x - w| ∧ Representable 52 v

def NearestEven (y : ℚ) (n : ℕ) : Prop := |y - n| ≤ 1 / 2 ∧ (|y - n| = 1 / 2 → n % 2 = 0)

section representable

variable {bits : ℕ} {x v w : ℚ}

theorem Representable.neg (h : Representable bits x) : Representable bits (-x) := by
  obtain ⟨m, e, hm, he, rfl⟩ := h
  exact ⟨-m, e, by rwa [abs_neg], he, by push_cast; ring⟩

theorem representable_two_pow (k : ℕ) (hbits : 0 < bits) : Representable bits (2 ^ k) := by
  refine ⟨1, k, ?_, by omega, by simp⟩
  rw [abs_one]
  exact one_lt_pow₀ (by norm_num) hbits.ne'

theorem representable_natCast_mul {n : ℕ} {t : ℤ} (hbits : 0 < bits) (hn : n ≤ 2 ^ bits)
    (ht : -1021 - (bits : ℤ) ≤ t) : Representable bits (n * 2 ^ t) := by
  rcases Nat.lt_or_eq_of_le hn with hlt | rfl
  · refine ⟨n, t, ?_, ht, by push_cast; rfl⟩
    rw [abs_of_nonneg (by positivity)]
    exact_mod_cast hlt
  · refine ⟨1, t + bits, ?_, by omega, ?_⟩
    · rw [abs_one]
      exact one_lt_pow₀ (by norm_num) hbits.ne'
    · rw [zpow_add₀ two_ne_zero, zpow_natCast]
      push_cast
      ring

theorem Representable.grid (t : ℤ) (h : Representable 53 w) :
    (∃ k : ℤ, w = k * 2 ^ t) ∨ -1074 < t ∧ |w| < 2 ^ 52 * 2 ^ t := by
  obtain ⟨m, e, hm, he, rfl⟩ := h
  rcases le_or_gt t e with hte | hte
  · refine .inl ⟨m * 2 ^ (e - t).toNat, ?_⟩
    have hexp : (2 : ℚ) ^ e = 2 ^ (e - t).toNat * 2 ^ t := by
      rw [← zpow_natCast, Int.toNat_of_nonneg (by omega), ← zpow_add₀ two_ne_zero]
      congr 1
      omega
    push_cast
    rw [hexp]
    ring
  · refine .inr ⟨by omega, ?_⟩
    have hm' : (|m| : ℚ) < 2 ^ 53 := by exact_mod_cast hm
    have hexp : (2 : ℚ) ^ e ≤ 2 ^ (t - 1) := zpow_le_zpow_right₀ (by norm_num) (by omega)
    have hstep : (2 : ℚ) ^ t = 2 ^ (t - 1) * 2 := by
      rw [← zpow_add_one₀ two_ne_zero, sub_add_cancel]
    have hpos : (0 : ℚ) < 2 ^ e := by positivity
    calc |(m : ℚ) * 2 ^ e| = |(m : ℚ)| * 2 ^ e := by rw [abs_mul, abs_of_pos hpos]
      _ < 2 ^ 53 * 2 ^ e := mul_lt_mul_of_pos_right hm' hpos
      _ ≤ 2 ^ 53 * 2 ^ (t - 1) := mul_le_mul_of_nonneg_left hexp (by positivity)
      _ = 2 ^ 52 * 2 ^ t := by rw [hstep]; ring

end representable

section nearest

variable {x v : ℚ} {y : ℚ} {n : ℕ} {t : ℤ}

theorem NearestEven.le (h : NearestEven y n) {k : ℤ} (hk : k ≠ n) :
    |y - n| < |y - k| ∨ |y - n| = |y - k| ∧ n % 2 = 0 := by
  have hgap : (1 : ℚ) ≤ |((n : ℤ) : ℚ) - k| := by
    have : (1 : ℤ) ≤ |(n : ℤ) - k| := Int.one_le_abs (sub_ne_zero.2 hk.symm)
    exact_mod_cast this
  have htri : |((n : ℤ) : ℚ) - k| ≤ |y - n| + |y - k| := by
    have := abs_sub_le ((n : ℤ) : ℚ) y k
    rwa [abs_sub_comm ((n : ℤ) : ℚ) y] at this
  obtain ⟨hhalf, heven⟩ := h
  rcases lt_or_eq_of_le hhalf with hlt | heq
  · left
    linarith
  · rcases lt_or_eq_of_le (show |y - n| ≤ |y - k| by linarith) with hlt | hsame
    · exact .inl hlt
    · exact .inr ⟨hsame, heven heq⟩

theorem NearestEven.le_of_natCast_le (h : NearestEven y n) {k : ℕ} (hk : (k : ℚ) ≤ y) : k ≤ n := by
  by_contra hlt
  have hgap : (n : ℚ) + 1 ≤ k := by exact_mod_cast Nat.lt_of_not_le hlt
  have hclose := (abs_le.1 h.1).2
  linarith

theorem NearestEven.le_of_lt_natCast (h : NearestEven y n) {k : ℕ} (hk : y < k) : n ≤ k := by
  by_contra hlt
  have hgap : (k : ℚ) + 1 ≤ n := by exact_mod_cast Nat.lt_of_not_le hlt
  have hclose := (abs_le.1 h.1).1
  linarith

theorem NearestBinary64.neg (h : NearestBinary64 x v) : NearestBinary64 (-x) (-v) := by
  refine ⟨h.representable.neg, fun w hw hne => ?_⟩
  have hflip (z : ℚ) : |-x - z| = |x - -z| := by
    rw [← abs_neg]
    congr 1
    ring
  rw [hflip, hflip, neg_neg]
  rcases h.nearest (-w) hw.neg (fun heq => hne (by rw [← heq, neg_neg])) with hlt | ⟨heq, heven⟩
  · exact .inl hlt
  · exact .inr ⟨heq, heven.neg⟩

theorem NearestBinary64.of_representable (h : Representable 53 x) (hv : NearestBinary64 x v) :
    v = x := by
  by_contra hne
  have hnear := hv.nearest x h (Ne.symm hne)
  rw [sub_self, abs_zero] at hnear
  rcases hnear with hlt | ⟨heq, -⟩
  · exact absurd hlt (not_lt.2 (abs_nonneg _))
  · exact hne (sub_eq_zero.1 (abs_eq_zero.1 heq)).symm

theorem NearestBinary64.le_of_le (hv : NearestBinary64 x v) {w : ℚ} (hw : Representable 53 w)
    (h : w ≤ x) : w ≤ v := by
  by_contra hlt
  rw [not_le] at hlt
  have hnear := hv.nearest w hw hlt.ne'
  rw [abs_of_nonneg (by linarith), abs_of_nonneg (sub_nonneg.2 h)] at hnear
  rcases hnear with hlt' | ⟨heq, -⟩ <;> linarith

/-- On the grid that fills the significand, or the finest one, the nearest number is the nearest
integer in units of the grid. -/
theorem nearestBinary64_of_grid (ht : -1074 ≤ t) (hlow : t = -1074 ∨ 2 ^ 52 ≤ x / 2 ^ t)
    (hhigh : x / 2 ^ t < 2 ^ 53) (hn : NearestEven (x / 2 ^ t) n) :
    NearestBinary64 x (n * 2 ^ t) := by
  have hpos : (0 : ℚ) < 2 ^ t := by positivity
  have hunit : x = x / 2 ^ t * 2 ^ t := (div_mul_cancel₀ x hpos.ne').symm
  have hscaled (z : ℚ) : |x - z * 2 ^ t| = |x / 2 ^ t - z| * 2 ^ t := by
    rw [← abs_of_pos hpos, ← abs_mul, abs_of_pos hpos, sub_mul, ← hunit]
  have hbound : n ≤ 2 ^ 53 := hn.le_of_lt_natCast (by exact_mod_cast hhigh)
  have heven (h2 : n % 2 = 0) : Representable 52 (n * 2 ^ t) := by
    have hhalf : (n : ℚ) * 2 ^ t = (n / 2 : ℕ) * 2 ^ (t + 1) := by
      rw [Nat.cast_div (Nat.dvd_of_mod_eq_zero h2) two_ne_zero, zpow_add_one₀ two_ne_zero]
      push_cast
      ring
    rw [hhalf]
    exact representable_natCast_mul (by decide) (by omega) (by push_cast; omega)
  refine ⟨representable_natCast_mul (by decide) hbound (by push_cast; omega), fun w hw hne => ?_⟩
  rcases hw.grid t with ⟨k, rfl⟩ | ⟨hfine, hsmall⟩
  · have hk : k ≠ n := by
      rintro rfl
      exact hne (by push_cast; rfl)
    rw [hscaled, hscaled]
    rcases hn.le hk with hlt | ⟨heq, h2⟩
    · exact .inl (mul_lt_mul_of_pos_right hlt hpos)
    · exact .inr ⟨by rw [heq], heven h2⟩
  · -- the numbers of the finer grids are all below the significands of full length
    have hfull : (2 : ℚ) ^ 52 ≤ x / 2 ^ t := hlow.resolve_left (by omega)
    have hedge : (2 : ℚ) ^ 52 * 2 ^ t ≤ x := by
      rw [hunit]
      exact mul_le_mul_of_nonneg_right hfull hpos.le
    have hfirst : |x - n * 2 ^ t| ≤ |x - (2 ^ 52 : ℕ) * 2 ^ t| := by
      rw [hscaled, hscaled]
      refine mul_le_mul_of_nonneg_right ?_ hpos.le
      rcases eq_or_ne ((2 ^ 52 : ℕ) : ℤ) n with heq | hne52
      · rw [show n = 2 ^ 52 by exact_mod_cast heq.symm]
      · rcases hn.le hne52 with hlt | ⟨heq, -⟩
        · exact_mod_cast hlt.le
        · exact_mod_cast heq.le
    have hw' := (abs_lt.1 hsmall).2
    left
    refine hfirst.trans_lt ?_
    rw [abs_of_nonneg (by push_cast; linarith), abs_of_nonneg (by linarith)]
    push_cast
    linarith

theorem exists_nearestEven (y : ℚ) (hy : 0 ≤ y) : ∃ n, NearestEven y n := by
  obtain ⟨k, hk⟩ := Int.eq_ofNat_of_zero_le (Int.floor_nonneg.2 hy)
  have hlow : (k : ℚ) ≤ y := by
    have := Int.floor_le y
    rwa [hk] at this
  have hhigh : y < k + 1 := by
    have := Int.lt_floor_add_one y
    rwa [hk] at this
  rcases lt_trichotomy (y - k) (1 / 2) with h | h | h
  · exact ⟨k, by rw [abs_of_nonneg (by linarith)]; exact h.le, fun heq => by
      rw [abs_of_nonneg (by linarith)] at heq; linarith⟩
  · rcases Nat.mod_two_eq_zero_or_one k with h2 | h2
    · exact ⟨k, by rw [h, abs_of_pos (by norm_num)], fun _ => h2⟩
    · refine ⟨k + 1, ?_, fun _ => by omega⟩
      push_cast
      rw [abs_le]
      constructor <;> linarith
  · refine ⟨k + 1, ?_, fun heq => ?_⟩
    · push_cast
      rw [abs_le]
      constructor <;> linarith
    · push_cast at heq
      rw [abs_of_nonpos (by linarith)] at heq
      linarith

theorem exists_grid (x : ℚ) :
    ∃ t : ℤ, -1074 ≤ t ∧ (t = -1074 ∨ 2 ^ 52 ≤ x / 2 ^ t) ∧ x / 2 ^ t < 2 ^ 53 := by
  have hsplit (a b : ℤ) : (2 : ℚ) ^ a * 2 ^ b = 2 ^ (a + b) := (zpow_add₀ two_ne_zero a b).symm
  rcases le_or_gt (2 ^ (-1022 : ℤ)) x with hnormal | hsmall
  · have hpos : 0 < x := lt_of_lt_of_le (by positivity) hnormal
    have hlow : (2 : ℚ) ^ Int.log 2 x ≤ x := Int.zpow_log_le_self (by decide) hpos
    have hhigh : x < (2 : ℚ) ^ (Int.log 2 x + 1) := Int.lt_zpow_succ_log_self (by decide) x
    have hexp : -1022 < Int.log 2 x + 1 :=
      (zpow_lt_zpow_iff_right₀ (by norm_num : (1 : ℚ) < 2)).1 (hnormal.trans_lt hhigh)
    refine ⟨Int.log 2 x - 52, by omega, .inr ?_, ?_⟩
    · rw [le_div_iff₀ (by positivity), ← zpow_natCast, hsplit]
      exact le_of_eq_of_le (by congr 1; omega) hlow
    · rw [div_lt_iff₀ (by positivity), ← zpow_natCast, hsplit]
      exact lt_of_lt_of_eq hhigh (by congr 1; omega)
  · refine ⟨-1074, le_rfl, .inl rfl, ?_⟩
    rw [div_lt_iff₀ (by positivity), ← zpow_natCast, hsplit]
    exact hsmall.trans_le (zpow_le_zpow_right₀ (by norm_num) (by decide))

theorem exists_nearestBinary64 (hx : 0 ≤ x) : ∃ v, NearestBinary64 x v := by
  obtain ⟨t, ht, hlow, hhigh⟩ := exists_grid x
  obtain ⟨n, hn⟩ := exists_nearestEven (x / 2 ^ t) (by positivity)
  exact ⟨n * 2 ^ t, nearestBinary64_of_grid ht hlow hhigh hn⟩

end nearest
end TrackingScore
