import TrackingScore.PoseError
import TrackingScore.Proofs.FirstFailure
import TrackingScore.Proofs.TrackQuery

/-!
What comes of comparing an estimate with a track. A pose has an error exactly if its time is in the
range of the track, so the first pose out of range decides for the whole estimate.
-/

namespace TrackingScore

namespace Track

variable {α : Type} [Scalar α] {track : Track α} {pose : Pose α} {stream : PoseStream α}

theorem Answers.errorOf_eq {position : Vector3 α} {orientation : Quaternion α}
    (h : track.Answers pose.timestamp position orientation) :
    track.errorOf pose = .ok ⟨pose.timestamp, positionError pose.position position,
      orientationError pose.orientation orientation⟩ := by
  rw [errorOf, h.positionAt_eq, h.orientationAt_eq]
  rfl

theorem errorOf_of_contains (h : track.contains pose.timestamp = true) :
    ∃ sample, track.errorOf pose = .ok sample := by
  obtain ⟨position, orientation, hanswers⟩ := exists_answers h
  exact ⟨_, hanswers.errorOf_eq⟩

theorem errorOf_of_not_contains (h : track.contains pose.timestamp = false) :
    track.errorOf pose = .error (.outOfRange pose.timestamp track.first track.last) := by
  rw [errorOf, ((failsOutOfRange track _).1 _).2 ⟨h, rfl⟩]
  rfl

theorem timestamp_of_errorOf {sample : ErrorSample α} (h : track.errorOf pose = .ok sample) :
    sample.timestamp = pose.timestamp := by
  simp only [errorOf, bind_eq_ok_iff] at h
  obtain ⟨_, _, _, _, hsample⟩ := h
  exact congrArg ErrorSample.timestamp (Except.ok.inj hsample).symm

theorem evaluate_of_empty (h : stream.toList = []) :
    track.evaluate stream = .error (.emptyInput .estimatedPoses) := by
  rw [evaluate, if_pos (by simp [Series.isEmpty, h])]

theorem evaluate_of_ne_nil (h : stream.toList ≠ []) :
    track.evaluate stream = stream.toList.mapM track.errorOf := by
  rw [evaluate, if_neg (by simp [Series.isEmpty, h])]

theorem evaluate_map {other : Track α} {f : Pose α → Pose α}
    (hf : ∀ pose, (f pose).timestamp = pose.timestamp)
    (h : ∀ pose, other.errorOf (f pose) = track.errorOf pose) (stream : PoseStream α) :
    other.evaluate (stream.map f hf) = track.evaluate stream := by
  have hempty : Series.isEmpty (stream.map f hf) = stream.isEmpty := by
    simp [Series.isEmpty]
  have herror : other.errorOf ∘ f = track.errorOf := funext h
  rw [evaluate, evaluate, hempty, Series.toList_map, List.mapM_map, herror]

def firstOutside? (track : Track α) (stream : PoseStream α) : Option (Pose α) :=
  stream.toList.find? fun pose => !track.contains pose.timestamp

omit [Scalar α] in
theorem firstOutside?_isSome_iff :
    (track.firstOutside? stream).isSome = true ↔
      ∃ pose ∈ stream.toList, track.contains pose.timestamp = false := by
  simp [firstOutside?]

theorem evaluate_of_firstOutside? (h : track.firstOutside? stream = some pose) :
    track.evaluate stream = .error (.outOfRange pose.timestamp track.first track.last) := by
  obtain ⟨hout, i, hi, rfl, hbefore⟩ := List.find?_eq_some_iff_getElem.1 h
  rw [evaluate_of_ne_nil (List.ne_nil_of_length_pos (Nat.zero_lt_of_lt hi)), mapM_eq_error_iff]
  exact ⟨i, hi, errorOf_of_not_contains (by simpa using hout),
    fun j hj => errorOf_of_contains (by simpa using hbefore j hj)⟩

theorem evaluate_of_contains (hne : stream.toList ≠ [])
    (h : ∀ pose ∈ stream.toList, track.contains pose.timestamp = true) :
    ∃ samples, track.evaluate stream = .ok samples ∧
      samples.map (·.timestamp) = stream.times := by
  rw [evaluate_of_ne_nil hne]
  obtain ⟨samples, hsamples⟩ :=
    exists_mapM_eq_ok fun pose hpose => errorOf_of_contains (h pose hpose)
  exact ⟨samples, hsamples, map_eq_map_of_mapM (fun _ _ => timestamp_of_errorOf) hsamples⟩

end Track

end TrackingScore
