import Mathlib.Analysis.SpecialFunctions.Complex.Arg
import Mathlib.Analysis.SpecialFunctions.Trigonometric.Inverse
import TrackingScore.Scalar

/-!
Numbers read exactly: every operation of a scalar is the one of the real numbers, and roots and
angles are the mathematical functions.
-/

namespace TrackingScore

-- these keep division and decimals those of the field wherever `Scalar` is known as well
noncomputable instance divReal : Div ℝ := inferInstance

noncomputable instance ofScientificReal : OfScientific ℝ := inferInstance

noncomputable instance : Scalar ℝ where
  ofInt n := n
  sqrt := Real.sqrt
  sin := Real.sin
  cos := Real.cos
  acos := Real.arccos
  atan2 y x := Complex.arg ⟨x, y⟩
  pi := Real.pi
  abs x := |x|
  less a b := decide (a < b)
  atMost a b := decide (a ≤ b)
  same a b := decide (a = b)
  isFinite _ := true
  nearestInt? x := some (if x < 0 then -⌊-x + 1 / 2⌋ else ⌊x + 1 / 2⌋)
  toByte x := UInt8.ofNat (min ⌊x⌋₊ 255)

section decimals

theorem zero_decimal : @OfScientific.ofScientific ℝ Scalar.toOfScientific 0 true 1 = 0 := by
  norm_num

theorem one_decimal : @OfScientific.ofScientific ℝ Scalar.toOfScientific 10 true 1 = 1 := by
  norm_num

theorem two_decimal : @OfScientific.ofScientific ℝ Scalar.toOfScientific 20 true 1 = 2 := by
  norm_num

theorem three_decimal : @OfScientific.ofScientific ℝ Scalar.toOfScientific 30 true 1 = 3 := by
  norm_num

end decimals

theorem Scalar.ofNat_def (n : ℕ) : (Scalar.ofNat n : ℝ) = n := Int.cast_natCast n

theorem Scalar.clamp_def (x low high : ℝ) :
    Scalar.clamp x low high = if x < low then low else if high < x then high else x := by
  simp [Scalar.clamp, Scalar.less]

/-- The bounds put on a cosine only matter to inexact numbers. -/
theorem Scalar.acos_clamp (x : ℝ) : Scalar.acos (Scalar.clamp x (-1.0) 1.0) = Real.arccos x := by
  change Real.arccos (Scalar.clamp x (-1.0) 1.0) = _
  rw [one_decimal, clamp_def]
  split_ifs with hlow hhigh
  · rw [Real.arccos_neg_one, Real.arccos_of_le_neg_one hlow.le]
  · rw [Real.arccos_one, Real.arccos_of_one_le hhigh.le]
  · rfl

end TrackingScore
