import TrackingScore.Search
import TrackingScore.Trajectory.Pose

/-!
A reference trajectory that answers queries at any time between its first and last pose. Positions
are interpolated linearly per axis, orientations per component and brought back to norm one. There
is no answer outside the stored range.
-/

namespace TrackingScore

open Scalar

structure Track (α : Type) where
  poses : PoseStream α
  nonempty : poses.toList ≠ []

inductive Bracket (α : Type) where
  | stored (pose : Pose α)
  | between (lower upper : Pose α)
  deriving Repr, DecidableEq

namespace Track

variable {α : Type}

def ofPoses (poses : PoseStream α) : Except (EvalError α) (Track α) :=
  if h : poses.toList = [] then .error (.emptyInput .track) else .ok ⟨poses, h⟩

theorem ofPoses_poses (track : Track α) : ofPoses track.poses = .ok track := dif_neg track.nonempty

def first (track : Track α) : Int64 := (track.poses.toList.head track.nonempty).timestamp

def last (track : Track α) : Int64 := (track.poses.toList.getLast track.nonempty).timestamp

def contains (track : Track α) (t : Int64) : Bool := track.first ≤ t && t ≤ track.last

theorem contains_iff {track : Track α} {t : Int64} :
    track.contains t = true ↔ track.first ≤ t ∧ t ≤ track.last := by
  simp [contains]

theorem length_pos (track : Track α) : 0 < track.poses.toList.length :=
  List.length_pos_iff.2 track.nonempty

def countBefore (track : Track α) (t : Int64) : Nat :=
  TrackingScore.countBefore Pose.timestamp track.poses.toList t

theorem countBefore_lt_length {track : Track α} {t : Int64} (h : track.contains t = true) :
    track.countBefore t < track.poses.toList.length := by
  refine Nat.lt_of_le_of_ne (countBefore_le_length _) fun heq => ?_
  have hpos := track.length_pos
  have hbefore := time_lt_of_countBefore Pose.timestamp (Nat.sub_one_lt_of_lt hpos)
    (heq.trans (Nat.sub_add_cancel hpos).symm)
  have hlast := (contains_iff.1 h).2
  rw [last, List.getLast_eq_getElem] at hlast
  exact Int64.lt_irrefl (Int64.lt_of_le_of_lt hlast hbefore)

theorem countBefore_pos {track : Track α} {t : Int64} (h : track.contains t = true)
    (hne : (track.poses.toList.get ⟨track.countBefore t, countBefore_lt_length h⟩).timestamp ≠ t) :
    0 < track.countBefore t := by
  refine Nat.pos_of_ne_zero fun hzero => hne ?_
  have hge := le_time_of_countBefore Pose.timestamp track.length_pos hzero
  have hfirst := (contains_iff.1 h).1
  rw [first, List.head_eq_getElem] at hfirst
  simpa [hzero] using Int64.le_antisymm hfirst hge

/-- The bracket of a time within the range of the track. The pose after the search either has the
time itself, or it is not the first one and the time lies behind the pose in front of it. -/
def bracket (track : Track α) (t : Int64) : Except (EvalError α) (Bracket α) :=
  if h : track.contains t = true then
    let poses := track.poses.toList
    let upper := track.countBefore t
    have hupper : upper < poses.length := countBefore_lt_length h
    if ht : poses[upper].timestamp = t then .ok (.stored poses[upper])
    else
      let lower := upper - 1
      have hlower : lower + 1 < poses.length := by
        have := countBefore_pos h ht
        omega
      .ok (.between poses[lower] poses[lower + 1])
  else .error (.outOfRange t track.first track.last)

variable [Scalar α]

/-- How much of the way from one pose to another has passed at a time. Differences of times are words
as the times are, so one too large for a word wraps around. -/
def fraction (lower upper : Pose α) (t : Int64) : α :=
  ofInt (t - lower.timestamp).toInt / ofInt (upper.timestamp - lower.timestamp).toInt

def positionAt (track : Track α) (t : Int64) : Except (EvalError α) (Vector3 α) := do
  match ← track.bracket t with
  | .stored pose => return pose.position
  | .between lower upper => return lower.position.lerp upper.position (fraction lower upper t)

def orientationAt (track : Track α) (t : Int64) : Except (EvalError α) (Quaternion α) := do
  match ← track.bracket t with
  | .stored pose => return pose.orientation
  | .between lower upper =>
    return lower.orientation.lerp upper.orientation (fraction lower upper t)

def poseAt (track : Track α) (t : Int64) : Except (EvalError α) (Pose α) := do
  return ⟨t, ← track.positionAt t, ← track.orientationAt t⟩

def positionsAt (track : Track α) (times : List Int64) :
    Except (EvalError α) (List (Vector3 α)) :=
  times.mapM track.positionAt

def orientationsAt (track : Track α) (times : List Int64) :
    Except (EvalError α) (List (Quaternion α)) :=
  times.mapM track.orientationAt

def posesAt (track : Track α) (times : List Int64) : Except (EvalError α) (List (Pose α)) :=
  times.mapM track.poseAt

end Track
end TrackingScore
