import TrackingScore.Proofs.TrackScore

/-!
An evaluation depends on differences of times alone. One number added to all times of the reference
and of the estimate leaves every comparison of times and every fraction as it was, so the outcome
is the same down to the last bit, but for the times it names.
-/

namespace TrackingScore

/-- A time with a number added to it. The sum is one of integers, so it has to be the value of a
word. -/
def TimeShifted (d : Int) (t moved : Int64) : Prop := moved.toInt = t.toInt + d

namespace TimeShifted

variable {d : Int} {s t moved other : Int64}

theorem lt_iff (hs : TimeShifted d s moved) (ht : TimeShifted d t other) :
    moved < other ↔ s < t := by
  unfold TimeShifted at hs ht
  rw [Int64.lt_iff_toInt_lt, Int64.lt_iff_toInt_lt]
  omega

theorem le_iff (hs : TimeShifted d s moved) (ht : TimeShifted d t other) :
    moved ≤ other ↔ s ≤ t := by
  rw [← Int64.not_lt, ← Int64.not_lt, ht.lt_iff hs]

theorem eq_iff (hs : TimeShifted d s moved) (ht : TimeShifted d t other) :
    moved = other ↔ s = t := by
  unfold TimeShifted at hs ht
  rw [← Int64.toInt_inj, ← Int64.toInt_inj]
  omega

theorem unique (ht : TimeShifted d t moved) (hother : TimeShifted d t other) : moved = other :=
  (ht.eq_iff hother).2 rfl

theorem sub_eq (hs : TimeShifted d s moved) (ht : TimeShifted d t other) :
    moved - other = s - t := by
  have hdifference : moved.toInt - other.toInt = s.toInt - t.toInt := by
    unfold TimeShifted at hs ht
    omega
  rw [← Int64.toInt_inj, Int64.toInt_sub, Int64.toInt_sub, hdifference]

end TimeShifted

structure Pose.Shifted {α : Type} (d : Int) (pose moved : Pose α) : Prop where
  timestamp : TimeShifted d pose.timestamp moved.timestamp
  position : moved.position = pose.position
  orientation : moved.orientation = pose.orientation

def PoseStream.Shifted {α : Type} (d : Int) (stream moved : PoseStream α) : Prop :=
  List.Forall₂ (Pose.Shifted d) stream.toList moved.toList

structure ErrorSample.Shifted {α : Type} (d : Int) (sample moved : ErrorSample α) : Prop where
  timestamp : TimeShifted d sample.timestamp moved.timestamp
  positionError : moved.positionError = sample.positionError
  orientationError : moved.orientationError = sample.orientationError

/-- The errors of an evaluation, with the times they name shifted. -/
inductive EvalError.Shifted {α : Type} (d : Int) : EvalError α → EvalError α → Prop
  | outOfRange {t first last t' first' last'} (ht : TimeShifted d t t')
      (hfirst : TimeShifted d first first') (hlast : TimeShifted d last last') :
      EvalError.Shifted d (.outOfRange t first last) (.outOfRange t' first' last')
  | emptyInput (fault : EmptyInputFault) :
      EvalError.Shifted d (.emptyInput fault) (.emptyInput fault)

variable {α : Type} {d : Int}

abbrev ShiftedOutcome (d : Int) (outcome moved : Except (EvalError α) (List (ErrorSample α))) :
    Prop :=
  Corresponds (EvalError.Shifted d) (List.Forall₂ (ErrorSample.Shifted d)) outcome moved

def CanShift (d : Int) (t : Int64) : Prop :=
  Int64.minValue.toInt ≤ t.toInt + d ∧ t.toInt + d ≤ Int64.maxValue.toInt

instance (t : Int64) : Decidable (CanShift d t) := inferInstanceAs (Decidable (_ ∧ _))

def Pose.shift (d : Int) (pose : Pose α) : Pose α :=
  { pose with timestamp := Int64.ofInt (pose.timestamp.toInt + d) }

theorem Pose.shifted_shift {pose : Pose α} (h : CanShift d pose.timestamp) :
    pose.Shifted d (pose.shift d) :=
  ⟨int64?_eq_some_iff.1 (if_pos h), rfl, rfl⟩

theorem PoseStream.Shifted.eq_nil_iff {stream moved : PoseStream α} (h : stream.Shifted d moved) :
    stream.toList = [] ↔ moved.toList = [] := by
  rw [← List.length_eq_zero_iff, ← List.length_eq_zero_iff, h.length_eq]

theorem PoseStream.exists_shifted {stream : PoseStream α}
    (h : ∀ pose ∈ stream.toList, CanShift d pose.timestamp) :
    ∃ moved, ofPoses (stream.toList.map (Pose.shift d)) = .ok moved ∧ stream.Shifted d moved := by
  have hpose : ∀ pose ∈ stream.toList, pose.Shifted d (pose.shift d) :=
    fun pose hpose => Pose.shifted_shift (h pose hpose)
  have hincreasing : (stream.toList.map (Pose.shift d)).Pairwise
      fun a b => a.timestamp < b.timestamp :=
    List.pairwise_map.2 (stream.increasing.imp_of_mem fun ha hb hlt =>
      ((hpose _ ha).timestamp.lt_iff (hpose _ hb).timestamp).2 hlt)
  refine ⟨⟨_, hincreasing⟩, ofPoses_eq_ok_iff.2 rfl, ?_⟩
  exact List.forall₂_map_right_iff.2 (List.forall₂_same.2 hpose)

namespace Track

variable {track moved : Track α} {t s : Int64}

section shifted

variable (h : track.poses.Shifted d moved.poses)
include h

theorem getElem_shifted {i : Nat} (hi : i < track.poses.toList.length) :
    ∃ _ : i < moved.poses.toList.length,
      track.poses.toList[i].Shifted d moved.poses.toList[i] :=
  ⟨h.length_eq ▸ hi, h.get hi _⟩

theorem first_shifted : TimeShifted d track.first moved.first := by
  obtain ⟨_, hfirst⟩ := getElem_shifted h track.length_pos
  rw [first, first, List.head_eq_getElem, List.head_eq_getElem]
  exact hfirst.timestamp

theorem last_shifted : TimeShifted d track.last moved.last := by
  obtain ⟨_, hlast⟩ := getElem_shifted h (Nat.sub_one_lt_of_lt track.length_pos)
  rw [last, last, List.getLast_eq_getElem, List.getLast_eq_getElem]
  simp only [← h.length_eq]
  exact hlast.timestamp

theorem contains_shifted (ht : TimeShifted d t s) : moved.contains s = track.contains t := by
  rw [Bool.eq_iff_iff, contains_iff, contains_iff, (first_shifted h).le_iff ht,
    ht.le_iff (last_shifted h)]

end shifted

variable [Scalar α]

theorem fraction_shifted {lower upper lower' upper' : Pose α} (hlower : lower.Shifted d lower')
    (hupper : upper.Shifted d upper') (ht : TimeShifted d t s) :
    fraction lower' upper' s = fraction lower upper t := by
  rw [fraction, fraction, ht.sub_eq hlower.timestamp, hupper.timestamp.sub_eq hlower.timestamp]

theorem exists_answers_shifted (h : track.poses.Shifted d moved.poses) (ht : TimeShifted d t s)
    (hcontains : track.contains t = true) :
    ∃ position orientation, track.Answers t position orientation ∧
      moved.Answers s position orientation := by
  rcases countBefore_cases hcontains with ⟨hi, hstored⟩ | ⟨i, hi, _, hlower, hupper⟩
  · obtain ⟨hi', hpose⟩ := getElem_shifted h hi
    have hanswers := answers_of_stored hi' ((hpose.timestamp.eq_iff ht).2 hstored)
    rw [hpose.position, hpose.orientation] at hanswers
    exact ⟨_, _, answers_of_stored hi hstored, hanswers⟩
  · obtain ⟨_, hposeLower⟩ := getElem_shifted h (Nat.lt_of_succ_lt hi)
    obtain ⟨hi', hposeUpper⟩ := getElem_shifted h hi
    have hanswers := answers_of_between hi' ((hposeLower.timestamp.lt_iff ht).2 hlower)
      ((ht.lt_iff hposeUpper.timestamp).2 hupper)
    rw [hposeLower.position, hposeLower.orientation, hposeUpper.position, hposeUpper.orientation,
      fraction_shifted hposeLower hposeUpper ht] at hanswers
    exact ⟨_, _, answers_of_between hi hlower hupper, hanswers⟩

theorem errorOf_shifted (h : track.poses.Shifted d moved.poses) {pose other : Pose α}
    (hpose : pose.Shifted d other) :
    Corresponds (EvalError.Shifted d) (ErrorSample.Shifted d) (track.errorOf pose)
      (moved.errorOf other) := by
  have hmoved := contains_shifted h hpose.timestamp
  cases hcontains : track.contains pose.timestamp with
  | false =>
    rw [errorOf_of_not_contains hcontains, errorOf_of_not_contains (hmoved.trans hcontains)]
    exact .error (.outOfRange hpose.timestamp (first_shifted h) (last_shifted h))
  | true =>
    obtain ⟨position, orientation, hanswers, hothers⟩ :=
      exists_answers_shifted h hpose.timestamp hcontains
    rw [errorOf, errorOf, hanswers.positionAt_eq, hanswers.orientationAt_eq, hothers.positionAt_eq,
      hothers.orientationAt_eq, hpose.position, hpose.orientation]
    exact .ok ⟨hpose.timestamp, rfl, rfl⟩

theorem evaluate_shifted (h : track.poses.Shifted d moved.poses) {estimated other : PoseStream α}
    (hestimated : estimated.Shifted d other) :
    ShiftedOutcome d (track.evaluate estimated) (moved.evaluate other) := by
  by_cases hempty : estimated.toList = []
  · rw [evaluate_of_empty hempty, evaluate_of_empty (hestimated.eq_nil_iff.1 hempty)]
    exact .error (.emptyInput _)
  · rw [evaluate_of_ne_nil hempty, evaluate_of_ne_nil (mt hestimated.eq_nil_iff.2 hempty)]
    exact .mapM (hestimated.imp fun _ _ => errorOf_shifted h)

omit [Scalar α] in
theorem ofPoses_shifted {reference moved : PoseStream α} (h : reference.Shifted d moved) :
    Corresponds (EvalError.Shifted d) (fun track other => track.poses.Shifted d other.poses)
      (ofPoses reference) (ofPoses moved) := by
  by_cases hempty : reference.toList = []
  · rw [ofPoses, ofPoses, dif_pos hempty, dif_pos (h.eq_nil_iff.1 hempty)]
    exact .error (.emptyInput _)
  · rw [ofPoses, ofPoses, dif_neg hempty, dif_neg (mt h.eq_nil_iff.2 hempty)]
    exact .ok h

/-- One number added to all times of a reference and of an estimate makes two streams again, as long
as the sums are words. The evaluation of these fails as the one of the first two does, or has the
same errors down to the last bit; only the times of the samples, or the three times that an error
names, have the number added. -/
theorem evaluate_shift (d : Int) (reference estimated : PoseStream α)
    (hreference : ∀ pose ∈ reference.toList, CanShift d pose.timestamp)
    (hestimated : ∀ pose ∈ estimated.toList, CanShift d pose.timestamp) :
    ∃ moved other, PoseStream.ofPoses (reference.toList.map (Pose.shift d)) = .ok moved ∧
      PoseStream.ofPoses (estimated.toList.map (Pose.shift d)) = .ok other ∧
      reference.Shifted d moved ∧ estimated.Shifted d other ∧
      ShiftedOutcome d (ofPoses reference >>= fun track => track.evaluate estimated)
        (ofPoses moved >>= fun track => track.evaluate other) := by
  obtain ⟨moved, hmoved, hshifted⟩ := PoseStream.exists_shifted hreference
  obtain ⟨other, hother, hshiftedOther⟩ := PoseStream.exists_shifted hestimated
  exact ⟨moved, other, hmoved, hother, hshifted, hshiftedOther,
    (ofPoses_shifted hshifted).bind fun _ _ htrack => evaluate_shifted htrack hshiftedOther⟩

def oneSecond : Track Float where
  poses := ⟨[⟨0, ⟨0.0, 0.0, 0.0⟩, .identity⟩, ⟨1000000000, ⟨1.0, 0.0, 0.0⟩, .identity⟩], by decide⟩
  nonempty := by decide

def endsLate : PoseStream Float :=
  ⟨[⟨250000000, ⟨0.0, 0.0, 0.0⟩, .identity⟩, ⟨1000000001, ⟨1.0, 0.0, 0.0⟩, .identity⟩], by decide⟩

theorem evaluate_shift_epoch :
    (∀ pose ∈ oneSecond.poses.toList, CanShift 1700000000000000001 pose.timestamp) ∧
      (∀ pose ∈ endsLate.toList, CanShift 1700000000000000001 pose.timestamp) ∧
      ∃ moved other,
        PoseStream.ofPoses (oneSecond.poses.toList.map (Pose.shift 1700000000000000001)) =
          .ok moved ∧
        PoseStream.ofPoses (endsLate.toList.map (Pose.shift 1700000000000000001)) = .ok other ∧
        (ofPoses moved >>= fun track => track.evaluate other) =
          .error (.outOfRange 1700000001000000002 1700000000000000001 1700000001000000001) := by
  have hsecond : ∀ pose ∈ oneSecond.poses.toList, CanShift 1700000000000000001 pose.timestamp := by
    decide
  have hlate : ∀ pose ∈ endsLate.toList, CanShift 1700000000000000001 pose.timestamp := by
    decide
  have hfirstOutside : oneSecond.firstOutside? endsLate =
      some ⟨1000000001, ⟨1.0, 0.0, 0.0⟩, .identity⟩ := rfl
  have hevaluate : (ofPoses oneSecond.poses >>= fun track => track.evaluate endsLate) =
      .error (.outOfRange 1000000001 0 1000000000) := by
    rw [ofPoses_poses]
    exact evaluate_of_firstOutside? hfirstOutside
  obtain ⟨moved, other, hmoved, hother, _, _, houtcome⟩ :=
    evaluate_shift 1700000000000000001 oneSecond.poses endsLate hsecond hlate
  refine ⟨hsecond, hlate, moved, other, hmoved, hother, ?_⟩
  rw [hevaluate] at houtcome
  obtain ⟨_, ⟨ht, hfirst, hlast⟩, heq⟩ := houtcome.exists_eq_error
  rw [heq, ht.unique (show TimeShifted _ _ 1700000001000000002 from rfl),
    hfirst.unique (show TimeShifted _ _ 1700000000000000001 from rfl),
    hlast.unique (show TimeShifted _ _ 1700000001000000001 from rfl)]

end Track
end TrackingScore
