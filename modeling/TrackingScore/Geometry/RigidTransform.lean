import TrackingScore.Trajectory.Pose

/-!
Rotation followed by translation, from one frame of reference into another: how transforms are
made, composed and inverted, and how they act on points, directions, orientations and poses.
-/

namespace TrackingScore

open Scalar

structure RigidTransform (α : Type) where
  translation : Vector3 α
  rotation : Quaternion α
  deriving Repr, DecidableEq

namespace RigidTransform

variable {α : Type} [Scalar α]

def identity : RigidTransform α := ⟨.zero, .identity⟩

/-- A transform with its rotation brought to norm one; the norm has to be near one already. -/
def ofUnnormalized (translation : Vector3 α) (rotation : Quaternion α) :
    Except (EvalError α) (RigidTransform α) :=
  let norm := rotation.norm
  if !isNearOne unitTolerance norm then .error (.ingestion (.nonUnitTransform norm))
  else .ok ⟨translation, rotation.normalize⟩

def angle (t : RigidTransform α) : α := t.rotation.angle

def transformPoint (t : RigidTransform α) (p : Vector3 α) : Vector3 α :=
  t.rotation.rotate p + t.translation

def rotateVector (t : RigidTransform α) (v : Vector3 α) : Vector3 α := t.rotation.rotate v

def transformOrientation (t : RigidTransform α) (q : Quaternion α) : Quaternion α :=
  t.rotation * q

def transformPose (t : RigidTransform α) (pose : Pose α) : Pose α :=
  ⟨pose.timestamp, t.transformPoint pose.position, t.transformOrientation pose.orientation⟩

@[simp] theorem transformPose_timestamp (t : RigidTransform α) (pose : Pose α) :
    (t.transformPose pose).timestamp = pose.timestamp := rfl

def transformStream (t : RigidTransform α) (stream : PoseStream α) : PoseStream α :=
  stream.map t.transformPose t.transformPose_timestamp

@[simp] theorem transformStream_toList (t : RigidTransform α) (stream : PoseStream α) :
    (t.transformStream stream).toList = stream.toList.map t.transformPose := rfl

def inverse (t : RigidTransform α) : RigidTransform α :=
  ⟨t.rotation.conjugate.rotate (-t.translation), t.rotation.conjugate⟩

instance : Mul (RigidTransform α) where
  mul a b := ⟨a.translation + a.rotation.rotate b.translation, a.rotation * b.rotation⟩

def matrix (t : RigidTransform α) : List (List α) :=
  let q := t.rotation
  let ww := q.w * q.w
  let xx := q.x * q.x
  let yy := q.y * q.y
  let zz := q.z * q.z
  let xy := q.x * q.y * 2.0
  let wz := q.w * q.z * 2.0
  let wy := q.w * q.y * 2.0
  let xz := q.x * q.z * 2.0
  let yz := q.y * q.z * 2.0
  let wx := q.w * q.x * 2.0
  [[ww + xx - yy - zz, xy - wz, wy + xz, t.translation.x],
    [wz + xy, ww - xx + yy - zz, yz - wx, t.translation.y],
    [xz - wy, wx + yz, ww - xx - yy + zz, t.translation.z],
    [0.0, 0.0, 0.0, 1.0]]

def same (a b : RigidTransform α) : Bool :=
  a.translation.same b.translation && a.rotation.sameRotation b.rotation

end RigidTransform
end TrackingScore
