import TrackingScore.Geometry.Quaternion
import TrackingScore.Proofs.Exact.Vector3

/-!
Quaternions with exact components. Multiplication from the left is linear and scales inner products,
and a unit quaternion turns vectors linearly and keeps their inner products.
-/

namespace TrackingScore

attribute [ext] Quaternion

namespace Quaternion

section components

variable (a b : Quaternion ℝ) (s : ℝ)

theorem add_def : a + b = ⟨a.w + b.w, a.x + b.x, a.y + b.y, a.z + b.z⟩ := rfl

theorem sub_def : a - b = ⟨a.w - b.w, a.x - b.x, a.y - b.y, a.z - b.z⟩ := rfl

theorem mul_def : a * b =
    ⟨a.w * b.w - a.x * b.x - a.y * b.y - a.z * b.z,
      a.w * b.x + a.x * b.w + a.y * b.z - a.z * b.y,
      a.w * b.y - a.x * b.z + a.y * b.w + a.z * b.x,
      a.w * b.z + a.x * b.y - a.y * b.x + a.z * b.w⟩ := rfl

theorem scale_def : a.scale s = ⟨a.w * s, a.x * s, a.y * s, a.z * s⟩ := rfl

theorem divide_def : a.divide s = ⟨a.w / s, a.x / s, a.y / s, a.z / s⟩ := rfl

theorem conjugate_def : a.conjugate = ⟨a.w, -a.x, -a.y, -a.z⟩ := rfl

theorem imaginary_def : a.imaginary = ⟨a.x, a.y, a.z⟩ := rfl

theorem dot_def : a.dot b = a.x * b.x + a.z * b.z + (a.y * b.y + a.w * b.w) := rfl

theorem norm_def : a.norm = √(a.dot a) := rfl

theorem normalize_def : a.normalize = a.divide a.norm := rfl

theorem lerp_def : a.lerp b s = (a + (b - a).scale s).normalize := rfl

theorem rotate_def (v : Vector3 ℝ) :
    a.rotate v =
      ((a.imaginary.cross v).scale 2).scale a.w +
        a.imaginary.cross ((a.imaginary.cross v).scale 2) + v := by
  rw [rotate, two_decimal]

end components

variable {q : Quaternion ℝ}

theorem norm_eq_one_iff : q.norm = 1 ↔ q.dot q = 1 := by
  rw [norm_def, Real.sqrt_eq_one]

theorem mul_lerp_sum (q a b : Quaternion ℝ) (s : ℝ) :
    q * a + (q * b - q * a).scale s = q * (a + (b - a).scale s) := by
  ext <;> simp only [add_def, sub_def, mul_def, scale_def] <;> ring

theorem mul_divide (q a : Quaternion ℝ) (s : ℝ) : q * a.divide s = (q * a).divide s := by
  ext <;> simp only [mul_def, divide_def] <;> ring

theorem dot_mul_mul (q a b : Quaternion ℝ) : (q * a).dot (q * b) = q.dot q * a.dot b := by
  simp only [mul_def, dot_def]
  ring

theorem norm_mul (h : q.dot q = 1) (a : Quaternion ℝ) : (q * a).norm = a.norm := by
  rw [norm_def, norm_def, dot_mul_mul, h, one_mul]

theorem normalize_mul (h : q.dot q = 1) (a : Quaternion ℝ) :
    (q * a).normalize = q * a.normalize := by
  rw [normalize_def, normalize_def, norm_mul h, mul_divide]

theorem lerp_mul (h : q.dot q = 1) (a b : Quaternion ℝ) (s : ℝ) :
    (q * a).lerp (q * b) s = q * a.lerp b s := by
  rw [lerp_def, lerp_def, mul_lerp_sum, normalize_mul h]

theorem rotate_add (q : Quaternion ℝ) (a b : Vector3 ℝ) :
    q.rotate (a + b) = q.rotate a + q.rotate b := by
  ext <;> simp only [rotate_def, Vector3.add_def, Vector3.scale_def, Vector3.cross_def] <;> ring

theorem rotate_sub (q : Quaternion ℝ) (a b : Vector3 ℝ) :
    q.rotate (a - b) = q.rotate a - q.rotate b := by
  ext <;> simp only [rotate_def, Vector3.add_def, Vector3.sub_def, Vector3.scale_def,
    Vector3.cross_def] <;> ring

theorem rotate_neg (q : Quaternion ℝ) (v : Vector3 ℝ) : q.rotate (-v) = -q.rotate v := by
  ext <;> simp only [rotate_def, Vector3.add_def, Vector3.neg_def, Vector3.scale_def,
    Vector3.cross_def] <;> ring

theorem rotate_scale (q : Quaternion ℝ) (v : Vector3 ℝ) (s : ℝ) :
    q.rotate (v.scale s) = (q.rotate v).scale s := by
  ext <;> simp only [rotate_def, Vector3.add_def, Vector3.scale_def, Vector3.cross_def] <;> ring

/-- What a rotation adds to an inner product has the factor by which the quaternion misses being
unit. -/
theorem dot_rotate (h : q.dot q = 1) (a b : Vector3 ℝ) :
    (q.rotate a).dot (q.rotate b) = a.dot b := by
  simp only [dot_def] at h
  simp only [rotate_def, imaginary, Vector3.add_def, Vector3.scale_def, Vector3.cross_def,
    Vector3.dot_def]
  linear_combination 4 * ((q.y * a.z - q.z * a.y) * (q.y * b.z - q.z * b.y) +
    (q.z * a.x - q.x * a.z) * (q.z * b.x - q.x * b.z) +
    (q.x * a.y - q.y * a.x) * (q.x * b.y - q.y * b.x)) * h

theorem norm_rotate (h : q.dot q = 1) (v : Vector3 ℝ) : (q.rotate v).norm = v.norm := by
  rw [Vector3.norm_def, Vector3.norm_def, dot_rotate h]

end Quaternion
end TrackingScore
