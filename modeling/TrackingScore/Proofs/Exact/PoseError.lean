import TrackingScore.PoseError
import TrackingScore.Proofs.Exact.RigidTransform

/-!
Errors of a position and of an orientation with exact numbers, and how little a common change of the
frame of reference does to them.
-/

namespace TrackingScore

open Scalar

theorem positionError_def (a b : Vector3 ℝ) : positionError a b = (a - b).norm := rfl

theorem orientationError_def (a b : Quaternion ℝ) :
    orientationError a b = Real.arccos (2 * a.dot b * a.dot b - 1) := by
  change acos (clamp (2.0 * a.dot b * a.dot b - 1.0) (-1.0) 1.0) = _
  rw [acos_clamp, one_decimal, two_decimal]

theorem orientationError_self {q : Quaternion ℝ} (h : q.dot q = 1) : orientationError q q = 0 := by
  rw [orientationError_def, h]
  norm_num

variable {T : RigidTransform ℝ}

theorem positionError_transformPoint (h : T.rotation.dot T.rotation = 1) (a b : Vector3 ℝ) :
    positionError (T.transformPoint a) (T.transformPoint b) = positionError a b := by
  rw [positionError_def, positionError_def, T.transformPoint_sub, Quaternion.norm_rotate h]

theorem orientationError_transformOrientation (h : T.rotation.dot T.rotation = 1)
    (a b : Quaternion ℝ) :
    orientationError (T.transformOrientation a) (T.transformOrientation b) =
      orientationError a b := by
  rw [orientationError_def, orientationError_def, RigidTransform.dot_transformOrientation h]

end TrackingScore
