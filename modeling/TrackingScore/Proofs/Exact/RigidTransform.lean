import TrackingScore.Geometry.RigidTransform
import TrackingScore.Proofs.Exact.Quaternion

/-!
Rigid transforms with exact numbers. Interpolation goes along with them, for points always and for
orientations if the rotation is unit.
-/

namespace TrackingScore.RigidTransform

variable (T : RigidTransform ℝ)

theorem transformPoint_def (p : Vector3 ℝ) :
    T.transformPoint p = T.rotation.rotate p + T.translation := rfl

theorem rotateVector_def (v : Vector3 ℝ) : T.rotateVector v = T.rotation.rotate v := rfl

theorem transformOrientation_def (q : Quaternion ℝ) :
    T.transformOrientation q = T.rotation * q := rfl

theorem transformPoint_sub (a b : Vector3 ℝ) :
    T.transformPoint a - T.transformPoint b = T.rotation.rotate (a - b) := by
  rw [Quaternion.rotate_sub]
  ext <;> simp only [transformPoint_def, Vector3.add_def, Vector3.sub_def] <;> ring

theorem transformPoint_add (a v : Vector3 ℝ) :
    T.transformPoint (a + v) = T.transformPoint a + T.rotation.rotate v := by
  rw [transformPoint_def, transformPoint_def, Quaternion.rotate_add]
  ext <;> simp only [Vector3.add_def] <;> ring

theorem transformPoint_lerp (a b : Vector3 ℝ) (s : ℝ) :
    T.transformPoint (a.lerp b s) = (T.transformPoint a).lerp (T.transformPoint b) s := by
  rw [Vector3.lerp_def, Vector3.lerp_def, transformPoint_add, transformPoint_sub,
    Quaternion.rotate_scale]

variable {T}

theorem transformOrientation_lerp (h : T.rotation.dot T.rotation = 1) (a b : Quaternion ℝ) (s : ℝ) :
    T.transformOrientation (a.lerp b s) =
      (T.transformOrientation a).lerp (T.transformOrientation b) s := by
  rw [transformOrientation_def, transformOrientation_def, transformOrientation_def,
    Quaternion.lerp_mul h]

theorem dot_transformOrientation (h : T.rotation.dot T.rotation = 1) (a b : Quaternion ℝ) :
    (T.transformOrientation a).dot (T.transformOrientation b) = a.dot b := by
  rw [transformOrientation_def, transformOrientation_def, Quaternion.dot_mul_mul, h, one_mul]

end TrackingScore.RigidTransform
