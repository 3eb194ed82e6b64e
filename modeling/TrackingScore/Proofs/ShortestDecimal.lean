import Mathlib.Algebra.Order.Field.Power
import Mathlib.Algebra.Order.Ring.Rat
import Mathlib.Tactic.FieldSimp
import Mathlib.Tactic.Linarith
import Mathlib.Tactic.Ring
import TrackingScore.Decimal.Shortest

/-!
The shortest decimal of a binary64 number lies in the interval of the numbers that round to it, and the
intervals of different numbers have no point in common.
-/

namespace TrackingScore

open Binary64 (closerBelow hiddenBit)

structure Canonical (m : ℕ) (e : ℤ) : Prop where
  pos : 0 < m
  lt : m < 2 ^ 53
  low : -1074 ≤ e
  high : e ≤ 971
  full : 2 ^ 52 ≤ m ∨ e = -1074

/-- Quarters of a unit from the number down to the end of its interval. -/
def below (m : ℕ) (e : ℤ) : ℕ := if closerBelow m e then 1 else 2

/-- A number rounds to `m * 2 ^ e`: it is within the interval around it, of which the ends belong to
even significands. -/
structure RoundsTo (m : ℕ) (e : ℤ) (x : ℚ) : Prop where
  low : (4 * m - below m e) * 2 ^ (e - 2) ≤ x
  high : x ≤ (4 * m + 2) * 2 ^ (e - 2)
  inside : m % 2 = 1 → (4 * m - below m e) * 2 ^ (e - 2) < x ∧ x < (4 * m + 2) * 2 ^ (e - 2)

section intervals

variable {m n : ℕ} {e f : ℤ} {x : ℚ}

theorem below_le (m : ℕ) (e : ℤ) : below m e ≤ 2 := by
  rw [below]
  split <;> omega

theorem RoundsTo.pos (h : RoundsTo m e x) (hm : 0 < m) : 0 < x := by
  refine lt_of_lt_of_le ?_ h.low
  have hbelow : (below m e : ℚ) ≤ 2 := by exact_mod_cast below_le m e
  have hm' : (1 : ℚ) ≤ m := by exact_mod_cast hm
  exact mul_pos (by linarith) (by positivity)

theorem RoundsTo.quarters (h : RoundsTo m e x) :
    (4 * m - below m e : ℚ) ≤ x / 2 ^ (e - 2) ∧ x / 2 ^ (e - 2) ≤ 4 * m + 2 ∧
      (m % 2 = 1 → (4 * m - below m e : ℚ) < x / 2 ^ (e - 2) ∧ x / 2 ^ (e - 2) < 4 * m + 2) := by
  have hpos : (0 : ℚ) < 2 ^ (e - 2) := by positivity
  rw [le_div_iff₀ hpos, div_le_iff₀ hpos, lt_div_iff₀ hpos, div_lt_iff₀ hpos]
  exact ⟨h.low, h.high, h.inside⟩

theorem RoundsTo.not_of_lt (hm : RoundsTo m e x) (hmn : m < n) : ¬RoundsTo n e x := by
  intro hn
  obtain ⟨-, hhigh, hodd⟩ := hm.quarters
  obtain ⟨hlow, -, hodd'⟩ := hn.quarters
  have hbelow : (below n e : ℚ) ≤ 2 := by exact_mod_cast below_le n e
  have hnext : (m : ℚ) + 1 ≤ n := by exact_mod_cast hmn
  rcases Nat.mod_two_eq_zero_or_one m with h2 | h2
  · rcases Nat.mod_two_eq_zero_or_one n with h2' | h2'
    · have hgap : (m : ℚ) + 2 ≤ n := by exact_mod_cast (show m + 2 ≤ n by omega)
      linarith
    · linarith [(hodd' h2').1]
  · linarith [(hodd h2).2]

/-- A finer grid ends where the next one starts; the last number of the finer one is odd. -/
theorem RoundsTo.not_of_finer (hm : RoundsTo m e x) (hcm : Canonical m e) (hcn : Canonical n f)
    (hef : e < f) : ¬RoundsTo n f x := by
  intro hn
  obtain ⟨-, hhigh, hodd⟩ := hm.quarters
  obtain ⟨hlow, -, -⟩ := hn.quarters
  have hfull : 2 ^ 52 ≤ n := hcn.full.resolve_right (by have := hcm.low; omega)
  have hunits : x / 2 ^ (e - 2) = x / 2 ^ (f - 2) * 2 ^ (f - e) := by
    rw [show e - 2 = f - 2 - (f - e) by ring, zpow_sub₀ two_ne_zero (f - 2)]
    field_simp
  have htwo : (2 : ℚ) ≤ 2 ^ (f - e) := by
    calc (2 : ℚ) = 2 ^ (1 : ℤ) := (zpow_one 2).symm
      _ ≤ 2 ^ (f - e) := zpow_le_zpow_right₀ one_le_two (by omega)
  have hbelow : (below n f : ℚ) ≤ 2 := by exact_mod_cast below_le n f
  have hn' : (2 : ℚ) ^ 52 ≤ n := by exact_mod_cast hfull
  have hscaled : (4 * n - below n f : ℚ) * 2 ≤ x / 2 ^ (e - 2) := by
    rw [hunits]
    exact mul_le_mul hlow htwo (by norm_num) (le_trans (by linarith) hlow)
  rcases Nat.lt_or_eq_of_le hfull with hlt | rfl
  · have hn'' : (2 : ℚ) ^ 52 + 1 ≤ n := by exact_mod_cast hlt
    have hm' : (m : ℚ) ≤ 2 ^ 53 - 1 := by
      have := hcm.lt
      have : (m : ℚ) + 1 ≤ 2 ^ 53 := by exact_mod_cast this
      linarith
    linarith
  · -- below the first number of its grid an interval is half as long, down to the end of the finer grid
    have hone : below (2 ^ 52) f = 1 := by
      have := hcm.low
      rw [below, closerBelow, if_pos]
      simpa [hiddenBit] using (show f ≠ -1074 by omega)
    rw [hone] at hscaled
    push_cast at hscaled
    rcases Nat.lt_or_ge m (2 ^ 53 - 1) with hm' | hm'
    · have hm'' : (m : ℚ) + 2 ≤ 2 ^ 53 := by exact_mod_cast (show m + 2 ≤ 2 ^ 53 by omega)
      linarith
    · have hlast : m = 2 ^ 53 - 1 := by have := hcm.lt; omega
      have hm'' : (m : ℚ) + 1 = 2 ^ 53 := by exact_mod_cast (show m + 1 = 2 ^ 53 by omega)
      linarith [(hodd (by omega)).2]

theorem RoundsTo.unique (hm : RoundsTo m e x) (hn : RoundsTo n f x) (hcm : Canonical m e)
    (hcn : Canonical n f) : m = n ∧ e = f := by
  rcases lt_trichotomy e f with hef | rfl | hfe
  · exact absurd hn (hm.not_of_finer hcm hcn hef)
  · rcases lt_trichotomy m n with hmn | rfl | hnm
    · exact absurd hn (hm.not_of_lt hmn)
    · exact ⟨rfl, rfl⟩
    · exact absurd hm (hn.not_of_lt hnm)
  · exact absurd hm (hn.not_of_finer hcn hcm hfe)

end intervals
namespace Decimal

def Scientific.value (d : Scientific) : ℚ := d.digits * 10 ^ d.exponent

/-! ## Grids -/

section grid

variable {tie : Tie} {m : ℕ} {e k : ℤ} {p : ℕ}

theorem pow_toNat_mul_zpow {b : ℚ} (hb : b ≠ 0) (k : ℤ) :
    b ^ (-k).toNat * b ^ k = b ^ k.toNat := by
  rw [← zpow_natCast, ← zpow_natCast, ← zpow_add₀ hb]
  congr 1
  omega

theorem commonScale_eq (q k : ℤ) :
    ((commonScale q k).1 : ℚ) * 10 ^ k = 2 ^ q * (commonScale q k).2 := by
  have htwo := pow_toNat_mul_zpow two_ne_zero q
  have hten := pow_toNat_mul_zpow (show (10 : ℚ) ≠ 0 by norm_num) k
  simp only [commonScale, Nat.pow_eq, Nat.cast_mul, Nat.cast_pow, Nat.cast_ofNat]
  rw [mul_assoc, hten, ← htwo]
  ring

theorem exists_unit (q k : ℤ) :
    ∃ r : ℚ, 0 < r ∧ (commonScale q k).1 * r = 2 ^ q ∧ (commonScale q k).2 * r = 10 ^ k := by
  have hstep : (0 : ℚ) < (commonScale q k).2 := by
    simp only [commonScale, Nat.pow_eq]
    positivity
  refine ⟨10 ^ k / (commonScale q k).2, div_pos (by positivity) hstep, ?_, by field_simp⟩
  rw [mul_div_assoc', commonScale_eq, mul_div_assoc, div_self hstep.ne', mul_one]

theorem nearerInside_eq_some {closed : Bool} {low value high step c : ℕ}
    (h : nearerInside tie closed low value high step c = some p) :
    low ≤ p * step ∧ p * step ≤ high ∧ (closed = false → low < p * step ∧ p * step < high) := by
  have hinside : (if closed then decide (low ≤ p * step) && decide (p * step ≤ high)
      else decide (low < p * step) && decide (p * step < high)) = true := by
    unfold nearerInside at h
    simp only at h
    split at h
    · cases h
    · rename_i hfirst hsecond
      obtain rfl := Option.some.inj h
      exact hfirst
    · rename_i hfirst hsecond
      obtain rfl := Option.some.inj h
      exact hsecond
    · rename_i hfirst hsecond
      have hp : p = c ∨ p = c + 1 := by
        split at h
        · exact .inl (Option.some.inj h).symm
        · exact .inr (Option.some.inj h).symm
        · split at h
          · exact .inl (Option.some.inj h).symm
          · exact .inr (Option.some.inj h).symm
      rcases hp with rfl | rfl
      · exact hfirst
      · exact hsecond
  cases closed <;> simp at hinside ⊢ <;> omega

theorem exists_nearerInside {closed : Bool} {low value high step : ℕ} (hlow : low ≤ value)
    (hstep : 0 < step) (hhigh : value + step < high) :
    ∃ p, nearerInside tie closed low value high step (value / step) = some p := by
  have hdiv := Nat.div_add_mod value step
  have hmod := Nat.mod_lt value hstep
  have hnext : (value / step + 1) * step = step * (value / step) + step := by ring
  have hinside : (if closed then decide (low ≤ (value / step + 1) * step) &&
        decide ((value / step + 1) * step ≤ high)
      else decide (low < (value / step + 1) * step) &&
        decide ((value / step + 1) * step < high)) = true := by
    rw [hnext]
    cases closed <;> simp <;> omega
  unfold nearerInside
  simp only [hinside]
  split
  · rename_i hnone
    cases hnone
  · rename_i hnone
    cases hnone
  · exact ⟨_, rfl⟩
  · split
    · exact ⟨_, rfl⟩
    · exact ⟨_, rfl⟩
    · split <;> exact ⟨_, rfl⟩

theorem roundsTo_of_onGrid (hm : 0 < m) (h : onGrid tie m e k = some p) :
    RoundsTo m e (p * 10 ^ k) := by
  obtain ⟨r, hr, hunit, hstep⟩ := exists_unit (e - 2) k
  obtain ⟨hlow, hhigh, hinside⟩ := nearerInside_eq_some h
  change 4 * m * (commonScale (e - 2) k).1 - below m e * (commonScale (e - 2) k).1 ≤
    p * (commonScale (e - 2) k).2 at hlow
  change p * (commonScale (e - 2) k).2 ≤
    4 * m * (commonScale (e - 2) k).1 + 2 * (commonScale (e - 2) k).1 at hhigh
  change decide (m % 2 = 0) = false →
    4 * m * (commonScale (e - 2) k).1 - below m e * (commonScale (e - 2) k).1 <
        p * (commonScale (e - 2) k).2 ∧
      p * (commonScale (e - 2) k).2 <
        4 * m * (commonScale (e - 2) k).1 + 2 * (commonScale (e - 2) k).1 at hinside
  generalize (commonScale (e - 2) k).1 = unit at hlow hhigh hinside hunit
  generalize (commonScale (e - 2) k).2 = step at hlow hhigh hinside hstep
  have hle : below m e * unit ≤ 4 * m * unit :=
    Nat.mul_le_mul_right unit (by have := below_le m e; omega)
  have hend : (4 * m - below m e : ℚ) * 2 ^ (e - 2) =
      ((4 * m * unit - below m e * unit : ℕ) : ℚ) * r := by
    rw [Nat.cast_sub hle, ← hunit]
    push_cast
    ring
  have hend' : (4 * m + 2 : ℚ) * 2 ^ (e - 2) = ((4 * m * unit + 2 * unit : ℕ) : ℚ) * r := by
    rw [← hunit]
    push_cast
    ring
  have hpoint : (p : ℚ) * 10 ^ k = ((p * step : ℕ) : ℚ) * r := by
    rw [← hstep]
    push_cast
    ring
  refine ⟨?_, ?_, fun hodd => ?_⟩
  · rw [hend, hpoint]
    exact mul_le_mul_of_nonneg_right (by exact_mod_cast hlow) hr.le
  · rw [hend', hpoint]
    exact mul_le_mul_of_nonneg_right (by exact_mod_cast hhigh) hr.le
  · obtain ⟨hlow, hhigh⟩ := hinside (by simp [hodd])
    rw [hend, hend', hpoint]
    exact ⟨mul_lt_mul_of_pos_right (by exact_mod_cast hlow) hr,
      mul_lt_mul_of_pos_right (by exact_mod_cast hhigh) hr⟩

theorem exists_onGrid (tie : Tie) (m : ℕ) (hk : (10 : ℚ) ^ k < 2 ^ (e - 1)) :
    ∃ p, onGrid tie m e k = some p := by
  obtain ⟨r, hr, hunit, hstep⟩ := exists_unit (e - 2) k
  have hhalf : (2 : ℚ) ^ (e - 1) = 2 * 2 ^ (e - 2) := by
    rw [← zpow_one_add₀ two_ne_zero]
    congr 1
    ring
  have hpos : 0 < (commonScale (e - 2) k).2 := by
    simp only [commonScale, Nat.pow_eq]
    positivity
  have hfine : (commonScale (e - 2) k).2 < 2 * (commonScale (e - 2) k).1 := by
    rw [hhalf, ← hunit, ← hstep, ← mul_assoc] at hk
    exact_mod_cast lt_of_mul_lt_mul_right hk hr.le
  exact exists_nearerInside (Nat.sub_le _ _) hpos (Nat.add_lt_add_left hfine _)

/-! ## The search -/

theorem roundsTo_search (hm : 0 < m) : ∀ (tries : ℕ) (k : ℤ), 0 < tries →
    (10 : ℚ) ^ (k - tries + 1) < 2 ^ (e - 1) → RoundsTo m e (search tie m e tries k).value
  | 0, k, htries, _ => absurd htries (lt_irrefl 0)
  | tries + 1, k, _, hk => by
    rw [search]
    cases hgrid : onGrid tie m e k with
    | some p => exact roundsTo_of_onGrid hm hgrid
    | none =>
      rcases Nat.eq_zero_or_pos tries with rfl | htries
      · obtain ⟨p, hp⟩ := exists_onGrid tie m (e := e) (k := k) (by simpa using hk)
        rw [hgrid] at hp
        cases hp
      · refine roundsTo_search hm tries (k - 1) htries ?_
        have hlast : k - 1 - tries + 1 = k - (tries + 1 : ℕ) + 1 := by push_cast; ring
        rwa [hlast]

theorem value_dropZeros (tries : ℕ) (d : Scientific) : (dropZeros tries d).value = d.value := by
  induction tries generalizing d with
  | zero => rfl
  | succ tries ih =>
    rw [dropZeros]
    split
    · rename_i hzero
      have hdigits : d.digits / 10 * 10 = d.digits := by
        simp at hzero
        omega
      have hcast : ((d.digits / 10 : ℕ) : ℚ) * 10 = d.digits := by exact_mod_cast hdigits
      rw [ih, Scientific.value, Scientific.value, zpow_add_one₀ (by norm_num), ← hcast, mul_assoc,
        mul_comm (10 : ℚ)]
    · rfl

theorem ten_zpow_lt_two_zpow {a b : ℤ} (hpos : 0 ≤ a → 10 * a < 3 * b)
    (hneg : a < 0 → 33 * a < 10 * b) : (10 : ℚ) ^ a < 2 ^ b := by
  have hpower (x : ℚ) (c : ℤ) (n : ℕ) : (x ^ c) ^ n = (x ^ n) ^ c := by
    rw [← zpow_natCast, ← zpow_natCast, ← zpow_mul, ← zpow_mul, mul_comm]
  have htwo (c d : ℤ) (n : ℕ) (h : n * c < d) : ((2 : ℚ) ^ n) ^ c < 2 ^ d := by
    rw [← zpow_natCast, ← zpow_mul]
    exact zpow_lt_zpow_right₀ one_lt_two h
  rcases le_or_gt 0 a with ha | ha
  · refine lt_of_pow_lt_pow_left₀ 3 (by positivity) ?_
    calc ((10 : ℚ) ^ a) ^ 3 = (10 ^ 3) ^ a := hpower 10 a 3
      _ ≤ (2 ^ 10) ^ a := zpow_le_zpow_left₀ ha (by norm_num) (by norm_num)
      _ < 2 ^ (b * 3) := htwo a _ 10 (by have := hpos ha; omega)
      _ = (2 ^ b) ^ 3 := by rw [zpow_mul, zpow_ofNat]
  · refine lt_of_pow_lt_pow_left₀ 10 (by positivity) ?_
    have hinverse : ((2 : ℚ) ^ 33) ^ (-a) ≤ (10 ^ 10) ^ (-a) :=
      zpow_le_zpow_left₀ (by omega) (by norm_num) (by norm_num)
    calc ((10 : ℚ) ^ a) ^ 10 = (10 ^ 10) ^ a := hpower 10 a 10
      _ ≤ (2 ^ 33) ^ a := by
        rw [← neg_neg a, zpow_neg, zpow_neg ((2 : ℚ) ^ 33)]
        exact inv_anti₀ (by positivity) hinverse
      _ < 2 ^ (b * 10) := htwo a _ 33 (by have := hneg ha; omega)
      _ = (2 ^ b) ^ 10 := by rw [zpow_mul, zpow_ofNat]

theorem last_grid (h : Canonical m e) :
    (10 : ℚ) ^ ((m.log2 + 1 + e) * 30103 / 100000 + 1 - (22 : ℕ) + 1) < 2 ^ (e - 1) := by
  have hlog : m.log2 < 53 := (Nat.log2_lt h.pos.ne').2 h.lt
  have hlow := h.low
  have hhigh := h.high
  apply ten_zpow_lt_two_zpow <;> omega

/-- The shortest decimal of a number rounds to it. -/
theorem roundsTo_shortest (h : Canonical m e) (tie : Tie) : RoundsTo m e (shortest tie m e).value := by
  rw [shortest, if_neg h.pos.ne']
  simp only
  rw [value_dropZeros]
  exact roundsTo_search h.pos 22 _ (by norm_num) (last_grid h)

end grid
end Decimal
end TrackingScore
