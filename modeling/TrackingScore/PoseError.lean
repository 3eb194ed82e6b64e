import TrackingScore.Geometry.RigidTransform
import TrackingScore.Statistics
import TrackingScore.Trajectory.Track

/-!
How far an estimated trajectory is from a reference track: one sample per pose, and figures that
sum up all samples.
-/

namespace TrackingScore

open Scalar

variable {α : Type} [Scalar α]

def positionError (estimated reference : Vector3 α) : α := (estimated - reference).norm

/-- Angle, in radians, between two orientations; the same for `q` and `-q`. -/
def orientationError (lhs rhs : Quaternion α) : α :=
  let d := lhs.dot rhs
  acos (clamp (2.0 * d * d - 1.0) (-1.0) 1.0)

structure ErrorSample (α : Type) where
  timestamp : Int64
  positionError : α
  orientationError : α
  deriving Repr, DecidableEq

def Track.errorOf (track : Track α) (pose : Pose α) : Except (EvalError α) (ErrorSample α) := do
  let position ← track.positionAt pose.timestamp
  let orientation ← track.orientationAt pose.timestamp
  return ⟨pose.timestamp, positionError pose.position position,
    orientationError pose.orientation orientation⟩

/-- One sample per estimated pose, in order. The first pose outside the range of the track fails
the whole evaluation, and so does an empty estimate. -/
def Track.evaluate (track : Track α) (estimated : PoseStream α) :
    Except (EvalError α) (List (ErrorSample α)) :=
  if estimated.isEmpty then .error (.emptyInput .estimatedPoses)
  else estimated.toList.mapM track.errorOf

structure ErrorSummary (α : Type) where
  count : Nat
  position : ColumnSummary α
  orientation : ColumnSummary α
  deriving Repr, DecidableEq

namespace ErrorSummary

def ofSamples (samples : List (ErrorSample α)) : Except (EvalError α) (ErrorSummary α) :=
  if samples.isEmpty then .error (.emptyInput .errorSamples)
  else .ok ⟨samples.length, .ofValues (samples.map (·.positionError)),
    .ofValues (samples.map (·.orientationError))⟩

def degrees (radians : α) : α := radians * (180.0 / pi)

def label (spell : Nat → α → String) (summary : ErrorSummary α) : String :=
  s!"position rmse: {spell 5 summary.position.rmse}, orientation rmse: " ++
    s!"{spell 2 (degrees summary.orientation.rmse)}°, n = {summary.count}"

end ErrorSummary
end TrackingScore
