import TrackingScore.Proofs.Exact.UnitQuaternion

/-!
Rotations given by an axis and an angle. The quaternion holds half of the angle, the rotation of a
vector and the angle read back hold the whole one.
-/

namespace TrackingScore.Quaternion

open Real

theorem ofAxisAngle_def (axis : Vector3 ℝ) (θ : ℝ) :
    ofAxisAngle axis θ =
      ⟨cos (θ / 2), axis.x * sin (θ / 2), axis.y * sin (θ / 2), axis.z * sin (θ / 2)⟩ := by
  rw [← two_decimal]
  rfl

theorem angle_def (q : Quaternion ℝ) :
    q.angle = Complex.arg ⟨|q.w|, q.imaginary.norm⟩ * 2 := by
  rw [← two_decimal]
  rfl

theorem arg_cos_sin {θ : ℝ} (hθ : θ ∈ Set.Icc 0 π) : Complex.arg ⟨cos θ, sin θ⟩ = θ := by
  rw [Complex.mk_eq_add_mul_I, Complex.ofReal_cos, Complex.ofReal_sin]
  exact Complex.arg_cos_add_sin_mul_I ⟨by linarith [hθ.1, pi_pos], hθ.2⟩

variable {axis : Vector3 ℝ}

theorem dot_ofAxisAngle (h : axis.dot axis = 1) (θ : ℝ) :
    (ofAxisAngle axis θ).dot (ofAxisAngle axis θ) = 1 := by
  rw [Vector3.dot_def] at h
  simp only [ofAxisAngle_def, dot_def]
  linear_combination sin (θ / 2) ^ 2 * h + sin_sq_add_cos_sq (θ / 2)

/-- Rodrigues' formula. -/
theorem rotate_ofAxisAngle (axis : Vector3 ℝ) (θ : ℝ) (v : Vector3 ℝ) :
    (ofAxisAngle axis θ).rotate v =
      v + (axis.cross v).scale (sin θ) + (axis.cross (axis.cross v)).scale (1 - cos θ) := by
  have hsin : sin θ = 2 * sin (θ / 2) * cos (θ / 2) := by
    rw [← sin_two_mul, mul_div_cancel₀ θ two_ne_zero]
  have hcos : 1 - cos θ = 2 * sin (θ / 2) ^ 2 := by
    have hdouble := cos_two_mul' (θ / 2)
    rw [mul_div_cancel₀ θ two_ne_zero] at hdouble
    rw [hdouble, ← sin_sq_add_cos_sq (θ / 2)]
    ring
  rw [hsin, hcos, ofAxisAngle_def]
  ext <;> simp only [rotate_def, imaginary_def, Vector3.add_def, Vector3.scale_def,
    Vector3.cross_def] <;> ring

theorem rotate_ofAxisAngle_axis (axis : Vector3 ℝ) (θ : ℝ) :
    (ofAxisAngle axis θ).rotate axis = axis := by
  rw [rotate_ofAxisAngle, Vector3.cross_self]
  ext <;> simp only [Vector3.add_def, Vector3.scale_def, Vector3.cross_def] <;> ring

theorem rotate_ofAxisAngle_of_dot_eq_zero (h : axis.dot axis = 1) {v : Vector3 ℝ}
    (hv : axis.dot v = 0) (θ : ℝ) :
    (ofAxisAngle axis θ).rotate v = v.scale (cos θ) + (axis.cross v).scale (sin θ) := by
  rw [rotate_ofAxisAngle, Vector3.cross_cross, h, hv]
  ext <;> simp only [Vector3.add_def, Vector3.sub_def, Vector3.scale_def] <;> ring

theorem angle_ofAxisAngle (h : axis.dot axis = 1) {θ : ℝ} (hθ : θ ∈ Set.Icc 0 π) :
    (ofAxisAngle axis θ).angle = θ := by
  have hcos : 0 ≤ cos (θ / 2) := by
    apply cos_nonneg_of_mem_Icc
    constructor <;> linarith [hθ.1, hθ.2, pi_pos]
  have hsin : 0 ≤ sin (θ / 2) := by
    apply sin_nonneg_of_nonneg_of_le_pi <;> linarith [hθ.1, hθ.2, pi_pos]
  have hnorm : (ofAxisAngle axis θ).imaginary.norm = sin (θ / 2) := by
    have hdot : (ofAxisAngle axis θ).imaginary.dot (ofAxisAngle axis θ).imaginary =
        sin (θ / 2) ^ 2 := by
      rw [Vector3.dot_def] at h
      simp only [ofAxisAngle_def, imaginary_def, Vector3.dot_def]
      linear_combination sin (θ / 2) ^ 2 * h
    rw [Vector3.norm_def, hdot, sqrt_sq hsin]
  have harg : Complex.arg ⟨cos (θ / 2), sin (θ / 2)⟩ = θ / 2 := by
    apply arg_cos_sin
    constructor <;> linarith [hθ.1, hθ.2]
  rw [angle_def, hnorm, ofAxisAngle_def, abs_of_nonneg hcos, harg, div_mul_cancel₀ θ two_ne_zero]

end TrackingScore.Quaternion
