import TrackingScore.Geometry.RigidTransform

/-!
The transform between two frames of reference from the least that determines it: a point and a
direction known in both, or a pose known in both.
-/

namespace TrackingScore

open Scalar

structure AlignmentParams (α : Type) where
  minDirectionNorm : α
  /-- Directions closer to parallel or antiparallel than this angle, in radians, are degenerate. -/
  parallelTolerance : α
  deriving Repr, DecidableEq

def AlignmentParams.default {α : Type} [Scalar α] : AlignmentParams α := ⟨1e-9, 1e-6⟩

/-- A point and a direction known in the source and in the target frame. -/
structure Correspondence (α : Type) where
  sourceOrigin : Vector3 α
  targetOrigin : Vector3 α
  sourceDir : Vector3 α
  targetDir : Vector3 α
  deriving Repr, DecidableEq

namespace Correspondence

variable {α : Type} [Scalar α]

def directionAngle (c : Correspondence α) : α :=
  acos (clamp (c.sourceDir.normalize.dot c.targetDir.normalize) (-1.0) 1.0)

/-- Takes the source origin onto the target origin and turns the source direction onto the target
direction along the shortest arc. Directions that are too short, parallel or antiparallel leave the
axis of the rotation undefined. -/
def solve (c : Correspondence α) (params : AlignmentParams α) :
    Except (EvalError α) (RigidTransform α) :=
  let sourceNorm := c.sourceDir.norm
  let targetNorm := c.targetDir.norm
  if !(atMost params.minDirectionNorm sourceNorm && atMost params.minDirectionNorm targetNorm) then
    .error (.degenerateAlignment (.shortDirection sourceNorm targetNorm))
  else
    let angle := c.directionAngle
    if less angle params.parallelTolerance then .error (.degenerateAlignment .parallel)
    else if less (pi - angle) params.parallelTolerance then
      .error (.degenerateAlignment .antiparallel)
    else
      let axis := (c.sourceDir.cross c.targetDir).normalize
      let rotation := Quaternion.ofAxisAngle axis angle
      .ok ⟨c.targetOrigin - rotation.rotate c.sourceOrigin, rotation⟩

end Correspondence

def Pose.alignment {α : Type} [Scalar α] (source target : Pose α) : RigidTransform α :=
  let rotation := target.orientation * source.orientation.conjugate
  ⟨target.position - rotation.rotate source.position, rotation⟩

end TrackingScore
