import TrackingScore.Error
import TrackingScore.Geometry.Quaternion
import TrackingScore.Series

/-!
Timestamped positions and orientations, and streams of them.
-/

namespace TrackingScore

open Scalar

structure Pose (α : Type) where
  timestamp : Int64
  position : Vector3 α
  /-- Of norm one. Its sign is kept as given, `q` and `-q` being one rotation. -/
  orientation : Quaternion α
  deriving Repr, DecidableEq

def unitTolerance {α : Type} [Scalar α] : α := 1e-6

def textUnitTolerance {α : Type} [Scalar α] : α := 1e-3

def isNearOne {α : Type} [Scalar α] (tolerance norm : α) : Bool :=
  isFinite norm && !less tolerance (abs (norm - 1.0))

namespace Pose

variable {α : Type} [Scalar α]

/-- A pose with its orientation brought to norm one. The position has to be finite and the norm
near one already. -/
def ofUnnormalized (timestamp : Int64) (position : Vector3 α) (orientation : Quaternion α) :
    Except (EvalError α) (Pose α) :=
  let norm := orientation.norm
  if !position.isFinite || !isFinite norm then
    .error (.ingestion (.nonFinitePose timestamp))
  else if !isNearOne unitTolerance norm then
    .error (.ingestion (.nonUnitPose timestamp norm))
  else .ok ⟨timestamp, position, orientation.normalize⟩

/-- A pose whose orientation was printed with few digits. It is brought to norm one before the
pose is made. -/
def ofPrinted (timestamp : Int64) (position : Vector3 α) (orientation : Quaternion α) :
    Except (EvalError α) (Pose α) :=
  let norm := orientation.norm
  if !isNearOne textUnitTolerance norm then
    .error (.ingestion (.nonUnitPose timestamp norm))
  else ofUnnormalized timestamp position (orientation.divide norm)

end Pose

abbrev PoseStream (α : Type) := Series (Pose α) Pose.timestamp

namespace PoseStream

variable {α : Type}

def ofPoses (poses : List (Pose α)) : Except (EvalError α) (PoseStream α) :=
  match Series.ofList poses with
  | .ok stream => .ok stream
  | .error (a, b) => .error (.ingestion (.unorderedPoses a.timestamp b.timestamp))

def push (stream : PoseStream α) (pose : Pose α) : Except (EvalError α) (PoseStream α) :=
  match Series.push stream pose with
  | .ok stream => .ok stream
  | .error last => .error (.ingestion (.poseNotAfter pose.timestamp last.timestamp))

variable {poses : List (Pose α)} {stream next : PoseStream α} {pose : Pose α}

theorem ofPoses_eq_ok_iff : ofPoses poses = .ok stream ↔ stream.toList = poses := by
  rw [← Series.ofList_eq_ok_iff]
  unfold ofPoses
  cases Series.ofList poses <;> simp

theorem push_eq_ok_iff : push stream pose = .ok next ↔ next.toList = stream.toList ++ [pose] := by
  rw [← Series.push_eq_ok_iff]
  unfold push
  cases Series.push stream pose <;> simp

theorem push_eq_error_iff {error : EvalError α} :
    push stream pose = .error error ↔ ∃ last, stream.last? = some last ∧
      pose.timestamp ≤ last.timestamp ∧
        error = .ingestion (.poseNotAfter pose.timestamp last.timestamp) := by
  simp only [← and_assoc, ← Series.push_eq_error_iff]
  unfold push
  cases Series.push stream pose <;> simp [eq_comm]

end PoseStream
end TrackingScore
