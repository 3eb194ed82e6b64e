import TrackingScore.Proofs.Exact.PoseError
import TrackingScore.Proofs.TrackScore

/-!
Pose errors are taken in a frame of reference and do not depend on it. A rigid transform goes along
with every step that leads from a reference track to an error: the search, the interpolation of
positions and of orientations, and the comparison with a pose.
-/

namespace TrackingScore

namespace Track

open Scalar

variable {T : RigidTransform ℝ}

noncomputable def transform (T : RigidTransform ℝ) (track : Track ℝ) : Track ℝ :=
  track.map T.transformPose T.transformPose_timestamp

theorem ofPoses_transformStream (T : RigidTransform ℝ) (stream : PoseStream ℝ) :
    ofPoses (T.transformStream stream) = (ofPoses stream).map (transform T) := by
  by_cases h : stream.toList = []
  · rw [ofPoses, ofPoses, dif_pos h, dif_pos (by simpa using h)]
    rfl
  · rw [ofPoses, ofPoses, dif_neg h, dif_neg (by simpa using h)]
    rfl

theorem positionAt_transform (T : RigidTransform ℝ) (track : Track ℝ) (t : Int64) :
    (track.transform T).positionAt t = (track.positionAt t).map T.transformPoint := by
  rw [positionAt, positionAt, transform, bracket_map]
  rcases track.bracket t with error | bracket
  · rfl
  · cases bracket with
    | stored pose => rfl
    | between lower upper =>
      exact congrArg Except.ok (T.transformPoint_lerp lower.position upper.position _).symm

theorem orientationAt_transform (h : T.rotation.dot T.rotation = 1) (track : Track ℝ) (t : Int64) :
    (track.transform T).orientationAt t = (track.orientationAt t).map T.transformOrientation := by
  rw [orientationAt, orientationAt, transform, bracket_map]
  rcases track.bracket t with error | bracket
  · rfl
  · cases bracket with
    | stored pose => rfl
    | between lower upper =>
      exact congrArg Except.ok
        (RigidTransform.transformOrientation_lerp h lower.orientation upper.orientation _).symm

theorem errorOf_transform (h : T.rotation.dot T.rotation = 1) (track : Track ℝ) (pose : Pose ℝ) :
    (track.transform T).errorOf (T.transformPose pose) = track.errorOf pose := by
  rw [errorOf, errorOf, T.transformPose_timestamp, positionAt_transform, orientationAt_transform h]
  rcases track.positionAt pose.timestamp with error | position
  · rfl
  rcases track.orientationAt pose.timestamp with error | orientation
  · rfl
  · have hposition := positionError_transformPoint h pose.position position
    have horientation := orientationError_transformOrientation h pose.orientation orientation
    exact congrArg Except.ok (congrArg₂ (ErrorSample.mk pose.timestamp) hposition horientation)

theorem evaluate_transform (h : T.rotation.dot T.rotation = 1) (track : Track ℝ)
    (estimated : PoseStream ℝ) :
    (track.transform T).evaluate (T.transformStream estimated) = track.evaluate estimated :=
  evaluate_map T.transformPose_timestamp (errorOf_transform h track) estimated

/-- Moving the reference and the estimate by one rigid transform changes nothing in the outcome of an
evaluation, be it a list of errors or a failure. -/
theorem evaluate_transformStream (T : RigidTransform ℝ) (h : T.rotation.norm = 1)
    (reference estimated : PoseStream ℝ) :
    (ofPoses (T.transformStream reference) >>= (evaluate · (T.transformStream estimated))) =
      (ofPoses reference >>= (evaluate · estimated)) := by
  have hunit := Quaternion.norm_eq_one_iff.1 h
  rw [ofPoses_transformStream]
  rcases ofPoses reference with error | track
  · rfl
  · exact evaluate_transform hunit track estimated

noncomputable def tilt : RigidTransform ℝ := ⟨⟨0, 1, -1⟩, ⟨3 / 5, 4 / 5, 0, 0⟩⟩

noncomputable def straight : Track ℝ where
  poses := ⟨[⟨0, ⟨-1, 0, 0⟩, ⟨1, 0, 0, 0⟩⟩, ⟨2, ⟨1, 0, 0⟩, ⟨1, 0, 0, 0⟩⟩], by decide⟩
  nonempty := by decide

noncomputable def aside : PoseStream ℝ := ⟨[⟨1, ⟨0, 1, 0⟩, ⟨1, 0, 0, 0⟩⟩], by decide⟩

theorem straight_answers : straight.Answers 1 ⟨0, 0, 0⟩ ⟨1, 0, 0, 0⟩ := by
  have hfraction :
      fraction straight.poses.toList[0] straight.poses.toList[0 + 1] 1 = (1 / 2 : ℝ) := by
    change ((1 - 0 : ℤ) : ℝ) / ((2 - 0 : ℤ) : ℝ) = 1 / 2
    norm_num
  have hposition : (⟨-1, 0, 0⟩ : Vector3 ℝ).lerp ⟨1, 0, 0⟩ (1 / 2) = ⟨0, 0, 0⟩ := by
    ext <;> norm_num [Vector3.lerp_def, Vector3.add_def, Vector3.sub_def, Vector3.scale_def]
  have horientation :
      (⟨1, 0, 0, 0⟩ : Quaternion ℝ).lerp ⟨1, 0, 0, 0⟩ (1 / 2) = ⟨1, 0, 0, 0⟩ := by
    ext <;> simp [Quaternion.lerp_def, Quaternion.normalize_def, Quaternion.divide_def,
      Quaternion.norm_def, Quaternion.dot_def, Quaternion.add_def, Quaternion.sub_def,
      Quaternion.scale_def]
  have hanswers := straight.answers_of_between (t := 1) (i := 0) (by decide) (by decide) (by decide)
  rw [hfraction] at hanswers
  rwa [← hposition, ← horientation]

theorem evaluate_transformStream_tilt :
    tilt.rotation.norm = 1 ∧
      (ofPoses (tilt.transformStream straight.poses) >>=
        (evaluate · (tilt.transformStream aside))) = .ok [⟨1, 1, 0⟩] := by
  have hunit : tilt.rotation.norm = 1 := by
    rw [Quaternion.norm_eq_one_iff, Quaternion.dot_def, tilt]
    norm_num
  have hposition : positionError ⟨0, 1, 0⟩ (⟨0, 0, 0⟩ : Vector3 ℝ) = 1 := by
    rw [positionError_def, Vector3.norm_def, Vector3.dot_def, Vector3.sub_def]
    norm_num
  have horientation : orientationError ⟨1, 0, 0, 0⟩ (⟨1, 0, 0, 0⟩ : Quaternion ℝ) = 0 :=
    orientationError_self (by simp [Quaternion.dot_def])
  have herror : straight.errorOf ⟨1, ⟨0, 1, 0⟩, ⟨1, 0, 0, 0⟩⟩ = .ok ⟨1, 1, 0⟩ := by
    rw [errorOf, straight_answers.positionAt_eq, straight_answers.orientationAt_eq]
    exact congrArg Except.ok (congrArg₂ (ErrorSample.mk 1) hposition horientation)
  refine ⟨hunit, ?_⟩
  rw [evaluate_transformStream tilt hunit straight.poses aside, ofPoses_poses]
  change [_].mapM straight.errorOf = _
  rw [List.mapM_cons, herror]
  rfl

end Track
end TrackingScore
