import TrackingScore.Proofs.FrameOfReference
import TrackingScore.Proofs.OppositeOrientations
import TrackingScore.Proofs.RunOutcome
import TrackingScore.Proofs.TransformGroup

/-!
A run that is right scores zero. Poses that a track answers with are at no distance from what it
answers at their times, and a session takes back the transform by which they were given in the frame of
reference of the run.
-/

namespace TrackingScore

theorem positionError_self (p : Vector3 ℝ) : positionError p p = 0 := by
  rw [positionError_def, Vector3.norm_def, Real.sqrt_eq_zero']
  simp [Vector3.dot_def, Vector3.sub_def]

theorem RigidTransform.transformStream_inverse {T : RigidTransform ℝ}
    (h : T.rotation.dot T.rotation = 1) (stream : PoseStream ℝ) :
    T.transformStream (T.inverse.transformStream stream) = stream := by
  have hinverse : T.inverse.rotation.dot T.inverse.rotation = 1 := T.rotation.dot_conjugate.trans h
  have hacts : ActsBy transformStream T T.inverse :=
    actsBy_transformStream ⟨identity_transformPose, mul_transformPose h hinverse⟩
  rw [← hacts.mul, mul_inverse_self h, hacts.identity]

theorem PoseStream.ofPoses_of_increasing {α : Type} {poses : List (Pose α)}
    (h : poses.Pairwise fun a b => a.timestamp < b.timestamp) :
    ofPoses poses = .ok ⟨poses, h⟩ :=
  ofPoses_eq_ok_iff.2 rfl

namespace Track

section answers

variable {α : Type} [Scalar α] {track : Track α} {t : Int64} {pose : Pose α} {times : List Int64}

theorem contains_of_poseAt (h : track.poseAt t = .ok pose) : track.contains t = true :=
  (track.failsOutOfRange t).2.2.exists_ok_iff.1 ⟨pose, h⟩

theorem exists_posesAt (h : ∀ t ∈ times, track.contains t = true) :
    ∃ poses, track.posesAt times = .ok poses ∧ poses.map (·.timestamp) = times ∧
      ∀ pose ∈ poses, track.poseAt pose.timestamp = .ok pose := by
  have hanswer : ∀ t ∈ times, ∃ pose, track.poseAt t = .ok pose := fun t ht => by
    obtain ⟨_, _, hanswers⟩ := exists_answers (h t ht)
    exact ⟨_, hanswers.poseAt_eq⟩
  obtain ⟨poses, hposes⟩ := exists_mapM_eq_ok hanswer
  refine ⟨poses, hposes, ?_, fun pose hpose => ?_⟩
  · rw [map_eq_map_of_mapM (p := id) (fun _ _ h => (answers_of_poseAt h).2) hposes, List.map_id]
  · obtain ⟨t, _, ht⟩ := exists_of_mem_mapM hposes hpose
    rwa [(answers_of_poseAt ht).2]

end answers

/-- Whether some pose and the next one have opposite orientations, which are the same rotation. -/
def NextOpposite {α : Type} [Scalar α] (track : Track α) : Prop :=
  ∃ i, ∃ (_ : i < track.poses.toList.length) (_ : i + 1 < track.poses.toList.length),
    track.poses.toList[i + 1].orientation = -track.poses.toList[i].orientation

section exact

variable {track : Track ℝ} (hunit : ∀ pose ∈ track.poses.toList, pose.orientation.norm = 1)
  (hopposite : ¬ track.NextOpposite)
include hunit hopposite

/-- The chord between two unit quaternions that are not opposite can be brought to norm one. -/
theorem exists_unit_answers {t : Int64} (h : track.contains t = true) :
    ∃ position orientation, track.Answers t position orientation ∧ orientation.norm = 1 := by
  rcases countBefore_cases h with ⟨hi, hstored⟩ | ⟨i, hi, _, hlower, hupper⟩
  · exact ⟨_, _, answers_of_stored hi hstored, hunit _ (List.getElem_mem hi)⟩
  · refine ⟨_, _, answers_of_between hi hlower hupper, ?_⟩
    rw [Quaternion.lerp_def, Quaternion.norm_normalize_eq_one_iff, ne_eq,
      chord_eq_zero_iff hunit hi]
    exact fun hvanishes => hopposite ⟨i, Nat.lt_of_succ_lt hi, hi, hvanishes.1⟩

theorem errorOf_of_poseAt {t : Int64} {pose : Pose ℝ} (h : track.poseAt t = .ok pose) :
    track.errorOf pose = .ok ⟨t, 0, 0⟩ := by
  obtain ⟨position, orientation, hanswers, hnorm⟩ :=
    exists_unit_answers hunit hopposite (contains_of_poseAt h)
  obtain rfl := Except.ok.inj (hanswers.poseAt_eq.symm.trans h)
  rw [hanswers.errorOf_eq]
  exact congrArg Except.ok (congrArg₂ (ErrorSample.mk t) (positionError_self position)
    (orientationError_self (Quaternion.norm_eq_one_iff.1 hnorm)))

theorem evaluate_of_answers {stream : PoseStream ℝ} (hne : stream.toList ≠ [])
    (hanswers : ∀ pose ∈ stream.toList, track.poseAt pose.timestamp = .ok pose) :
    track.evaluate stream = .ok (stream.times.map fun t => ⟨t, 0, 0⟩) := by
  rw [evaluate_of_ne_nil hne, mapM_eq_ok_iff, Series.times, List.map_map,
    List.forall₂_map_right_iff, List.forall₂_same]
  exact fun pose hpose => errorOf_of_poseAt hunit hopposite (hanswers pose hpose)

end exact

end Track

namespace Session

variable {ρ H : Type} [Scalar ρ] [Widen ρ ℝ] [ImageHandle H]

/-- A run whose poses are the answers of the track, seen from the frame of reference of the run, has no
error at any of the times. Its frames, had it any, were not captured. -/
theorem evaluateRun_perfect (session : Session ℝ H) (world : DiagnosticWorld ℝ) (spell : ℝ → String)
    (config : RunConfig ℝ) (frames : Option (FrameStream H)) (times : List Int64)
    (hunit : ∀ pose ∈ session.track.poses.toList, pose.orientation.norm = 1)
    (hopposite : ¬ session.track.NextOpposite) (hrotation : session.toReference.rotation.norm = 1)
    (hvalid : config.validate = .ok ()) (hposes : config.capturePoses = true)
    (hframes : config.captureFrames = false) (hne : times ≠ [])
    (hincreasing : times.Pairwise (· < ·)) (hinside : ∀ t ∈ times, session.track.contains t = true) :
    ∃ answers stream report, session.track.posesAt times = .ok answers ∧
      PoseStream.ofPoses answers = .ok stream ∧
      session.evaluateRun ρ world spell config
        (some (session.toReference.inverse.transformStream stream)) frames = .ok report ∧
      report.results = ⟨config, times.map fun t => ⟨t, 0, 0⟩, []⟩ := by
  obtain ⟨answers, hanswers, htimes, hself⟩ := Track.exists_posesAt hinside
  have hsorted : answers.Pairwise fun a b => a.timestamp < b.timestamp := by
    rw [← htimes] at hincreasing
    exact List.pairwise_map.1 hincreasing
  have hanswersNe : answers ≠ [] := by
    rintro rfl
    exact hne htimes.symm
  have hscores : session.scorePoses config (config.label spell)
      (some (session.toReference.inverse.transformStream ⟨answers, hsorted⟩)) =
        .ok (times.map fun t => ⟨t, 0, 0⟩) := by
    rw [scorePoses_of_some hposes,
      RigidTransform.transformStream_inverse (Quaternion.norm_eq_one_iff.1 hrotation),
      Track.evaluate_of_answers hunit hopposite hanswersNe hself, Series.times, htimes]
  have hnothing : session.scoreComparedFrames ρ world config frames = .ok [] :=
    scoreComparedFrames_of_not_captured hframes
  obtain ⟨report, hreport, hresults⟩ :=
    evaluateRun_of_scores (RunConfig.validate_eq_ok_iff.1 hvalid) hscores hnothing
  exact ⟨answers, ⟨answers, hsorted⟩, report, hanswers, PoseStream.ofPoses_of_increasing hsorted,
    hreport, hresults⟩

noncomputable def tiltedRoll : Session ℝ PictureSource where
  track :=
    { poses := ⟨[⟨0, ⟨-1, 0, 0⟩, ⟨1, 0, 0, 0⟩⟩, ⟨2, ⟨1, 0, 0⟩, ⟨0.6, 0.8, 0, 0⟩⟩], by decide⟩
      nonempty := by decide }
  referenceFrames := .empty
  toReference := Track.tilt
  params := .default ""

noncomputable instance : Widen ℝ ℝ where
  widen := id

theorem evaluateRun_perfect_tiltedRoll :
    ∃ answers stream report, tiltedRoll.track.posesAt [0, 1] = .ok answers ∧
      PoseStream.ofPoses answers = .ok stream ∧
      tiltedRoll.evaluateRun ℝ .quiet (fun _ => "")
        { RunConfig.reference with captureFrames := false }
        (some (tiltedRoll.toReference.inverse.transformStream stream)) none = .ok report ∧
      report.results.poseErrors = [⟨0, 0, 0⟩, ⟨1, 0, 0⟩] := by
  have hunit : ∀ pose ∈ tiltedRoll.track.poses.toList, pose.orientation.norm = 1 := by
    simp only [tiltedRoll, List.forall_mem_cons, Quaternion.norm_eq_one_iff, Quaternion.dot_def]
    norm_num
  have hopposite : ¬ tiltedRoll.track.NextOpposite := by
    rintro ⟨i, _, hi, h⟩
    obtain rfl : i = 0 := by simpa [tiltedRoll] using hi
    have hw := congrArg Quaternion.w h
    norm_num [tiltedRoll, Quaternion.neg_def] at hw
  have hrotation : tiltedRoll.toReference.rotation.norm = 1 := by
    rw [Quaternion.norm_eq_one_iff, Quaternion.dot_def, tiltedRoll, Track.tilt]
    norm_num
  have hinside : ∀ t ∈ [0, 1], tiltedRoll.track.contains t = true :=
    List.forall_mem_cons.2 ⟨rfl, List.forall_mem_singleton.2 rfl⟩
  obtain ⟨answers, stream, report, hanswers, hstream, hreport, hresults⟩ :=
    evaluateRun_perfect (ρ := ℝ) tiltedRoll .quiet (fun _ => "")
      { RunConfig.reference with captureFrames := false } none [0, 1] hunit hopposite hrotation rfl rfl
      rfl (List.cons_ne_nil _ _) (by decide) hinside
  exact ⟨answers, stream, report, hanswers, hstream, hreport, congrArg RunResults.poseErrors hresults⟩

end Session

end TrackingScore
