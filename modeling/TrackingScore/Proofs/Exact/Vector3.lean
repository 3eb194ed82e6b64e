import Mathlib.Tactic.Ring
import TrackingScore.Geometry.Vector3
import TrackingScore.Proofs.Exact.Scalar

/-!
Vectors with exact coordinates. Each operation is given by its coordinates in the arithmetic of the
real numbers, from which the laws of a vector space with an inner product follow.
-/

namespace TrackingScore

attribute [ext] Vector3

namespace Vector3

theorem zero_def : (zero : Vector3 ℝ) = ⟨0, 0, 0⟩ := by
  simp only [zero]
  norm_num

variable (a b : Vector3 ℝ) (s : ℝ)

theorem add_def : a + b = ⟨a.x + b.x, a.y + b.y, a.z + b.z⟩ := rfl

theorem sub_def : a - b = ⟨a.x - b.x, a.y - b.y, a.z - b.z⟩ := rfl

theorem neg_def : -a = ⟨-a.x, -a.y, -a.z⟩ := rfl

theorem scale_def : a.scale s = ⟨a.x * s, a.y * s, a.z * s⟩ := rfl

theorem dot_def : a.dot b = a.x * b.x + a.y * b.y + a.z * b.z := rfl

theorem cross_def :
    a.cross b = ⟨a.y * b.z - a.z * b.y, a.z * b.x - a.x * b.z, a.x * b.y - a.y * b.x⟩ := rfl

theorem norm_def : a.norm = √(a.dot a) := rfl

theorem normalize_def : a.normalize = ⟨a.x / a.norm, a.y / a.norm, a.z / a.norm⟩ := rfl

theorem lerp_def : a.lerp b s = a + (b - a).scale s := rfl

theorem norm_nonneg (v : Vector3 ℝ) : 0 ≤ v.norm := Real.sqrt_nonneg _

theorem norm_mul_norm (v : Vector3 ℝ) : v.norm * v.norm = v.dot v := by
  rw [norm_def, Real.mul_self_sqrt]
  rw [dot_def]
  exact add_nonneg (add_nonneg (mul_self_nonneg _) (mul_self_nonneg _)) (mul_self_nonneg _)

theorem normalize_eq_scale : a.normalize = a.scale a.norm⁻¹ := by
  simp only [normalize_def, scale_def, div_eq_mul_inv]

theorem dot_normalize : a.normalize.dot b.normalize = a.dot b / (a.norm * b.norm) := by
  simp only [normalize_def, dot_def]
  ring

theorem scale_one (v : Vector3 ℝ) : v.scale 1 = v := by
  ext <;> simp only [scale_def, mul_one]

theorem scale_scale (t : ℝ) : (a.scale s).scale t = a.scale (s * t) := by
  ext <;> simp only [scale_def, mul_assoc]

theorem scale_dot : (a.scale s).dot b = a.dot b * s := by
  simp only [scale_def, dot_def]
  ring

theorem normalize_scale_norm {v : Vector3 ℝ} (h : v.norm ≠ 0) : v.normalize.scale v.norm = v := by
  rw [normalize_eq_scale, scale_scale, inv_mul_cancel₀ h, scale_one]

theorem dot_normalize_self {v : Vector3 ℝ} (h : v.norm ≠ 0) :
    v.normalize.dot v.normalize = 1 := by
  rw [dot_normalize, norm_mul_norm, div_self]
  rw [← norm_mul_norm]
  exact mul_ne_zero h h

theorem cross_self (v : Vector3 ℝ) : v.cross v = ⟨0, 0, 0⟩ := by
  ext <;> simp only [cross_def] <;> ring

theorem scale_cross : (a.scale s).cross b = (a.cross b).scale s := by
  ext <;> simp only [cross_def, scale_def] <;> ring

theorem cross_cross (c : Vector3 ℝ) :
    a.cross (b.cross c) = b.scale (a.dot c) - c.scale (a.dot b) := by
  ext <;> simp only [cross_def, sub_def, scale_def, dot_def] <;> ring

theorem cross_cross_left :
    (a.cross b).cross a = b.scale (a.dot a) - a.scale (a.dot b) := by
  ext <;> simp only [cross_def, sub_def, scale_def, dot_def] <;> ring

theorem cross_dot_left : (a.cross b).dot a = 0 := by
  simp only [cross_def, dot_def]
  ring

theorem dot_cross_cross :
    (a.cross b).dot (a.cross b) = a.dot a * b.dot b - a.dot b * a.dot b := by
  simp only [cross_def, dot_def]
  ring

end Vector3
end TrackingScore
