import Mathlib.Data.List.Chain
import Mathlib.Logic.ExistsUnique
import TrackingScore.Proofs.SortedTimes
import TrackingScore.Trajectory.Track

/-!
What a track answers at a time. Inside the range a time is either stored or lies between exactly one
pair of neighbouring poses, and the search of the track finds it there; outside there is no answer.
-/

namespace TrackingScore

def Bracket.map {α : Type} (f : Pose α → Pose α) : Bracket α → Bracket α
  | .stored pose => .stored (f pose)
  | .between lower upper => .between (f lower) (f upper)

/-- The time from one pose to another one is a word. -/
def Pose.SpanFits {α : Type} (lower upper : Pose α) : Prop :=
  upper.timestamp.toInt - lower.timestamp.toInt ≤ Int64.maxValue.toInt

instance {α : Type} (lower upper : Pose α) : Decidable (lower.SpanFits upper) :=
  inferInstanceAs (Decidable (_ ≤ _))

section interpolation

variable {α : Type} [Scalar α]

def positionBetween (a b : Vector3 α) (share : α) : Vector3 α :=
  ⟨a.x + (b.x - a.x) * share, a.y + (b.y - a.y) * share, a.z + (b.z - a.z) * share⟩

def orientationBetween (a b : Quaternion α) (share : α) : Quaternion α :=
  let w := a.w + (b.w - a.w) * share
  let x := a.x + (b.x - a.x) * share
  let y := a.y + (b.y - a.y) * share
  let z := a.z + (b.z - a.z) * share
  let norm := Scalar.sqrt ((x * x + z * z) + (y * y + w * w))
  ⟨w / norm, x / norm, y / norm, z / norm⟩

theorem lerp_eq_positionBetween (a b : Vector3 α) (share : α) :
    a.lerp b share = positionBetween a b share := rfl

theorem lerp_eq_orientationBetween (a b : Quaternion α) (share : α) :
    a.lerp b share = orientationBetween a b share := rfl

end interpolation

namespace Track

variable {α : Type} {track : Track α} {t : Int64} {i : Nat}

def SpansFit (track : Track α) : Prop := track.poses.toList.IsChain Pose.SpanFits

theorem SpansFit.getElem (h : track.SpansFit) (hi : i + 1 < track.poses.toList.length) :
    track.poses.toList[i].SpanFits track.poses.toList[i + 1] :=
  List.isChain_iff_getElem.1 h i hi

theorem contains_eq_false_iff : track.contains t = false ↔ t < track.first ∨ track.last < t := by
  rw [← Bool.not_eq_true, contains_iff, Decidable.not_and_iff_or_not, Int64.not_le, Int64.not_le]

theorem first_le (h : i < track.poses.toList.length) :
    track.first ≤ track.poses.toList[i].timestamp := by
  rw [first, List.head_eq_getElem]
  exact (track.poses.time_le_time_iff track.length_pos h).2 (Nat.zero_le i)

theorem le_last (h : i < track.poses.toList.length) :
    track.poses.toList[i].timestamp ≤ track.last := by
  rw [last, List.getLast_eq_getElem]
  exact (track.poses.time_le_time_iff h (by omega)).2 (by omega)

theorem bracket_of_not_contains (h : track.contains t = false) :
    track.bracket t = .error (.outOfRange t track.first track.last) := by
  rw [bracket, dif_neg (by simp [h])]

theorem bracket_of_stored (h : i < track.poses.toList.length)
    (ht : track.poses.toList[i].timestamp = t) :
    track.bracket t = .ok (.stored track.poses.toList[i]) := by
  have hcontains : track.contains t = true := contains_iff.2 ⟨ht ▸ first_le h, ht ▸ le_last h⟩
  have hcount : track.countBefore t = i := by
    refine countBefore_eq track.poses.pairwise_le (Nat.le_of_lt h) (fun j hj => ?_) fun _ => ?_
    · exact ht ▸ (track.poses.time_lt_time_iff (by omega) h).2 hj
    · exact ht ▸ Int64.le_refl _
  subst hcount
  rw [bracket, dif_pos hcontains]
  exact dif_pos ht

theorem bracket_of_between (h : i + 1 < track.poses.toList.length)
    (hlower : track.poses.toList[i].timestamp < t)
    (hupper : t < track.poses.toList[i + 1].timestamp) :
    track.bracket t = .ok (.between track.poses.toList[i] track.poses.toList[i + 1]) := by
  have hcontains : track.contains t = true := contains_iff.2
    ⟨Int64.le_trans (first_le (by omega)) (Int64.le_of_lt hlower),
      Int64.le_trans (Int64.le_of_lt hupper) (le_last h)⟩
  have hcount : track.countBefore t = i + 1 := by
    refine countBefore_eq track.poses.pairwise_le (Nat.le_of_lt h) (fun j hj => ?_) fun _ => ?_
    · exact Int64.lt_of_le_of_lt ((track.poses.time_le_time_iff (by omega) (by omega)).2 (by omega))
        hlower
    · exact Int64.le_of_lt hupper
  obtain rfl : i = track.countBefore t - 1 := by omega
  rw [bracket, dif_pos hcontains]
  refine dif_neg fun heq => ?_
  simp only [← hcount, heq] at hupper
  exact Int64.lt_irrefl hupper

/-- The search for a time of the range ends at a pose with the time, or at the second one of two
neighbours on either side of it. -/
theorem countBefore_cases (h : track.contains t = true) :
    (∃ _ : track.countBefore t < track.poses.toList.length,
        track.poses.toList[track.countBefore t].timestamp = t) ∨
      ∃ i, ∃ _ : i + 1 < track.poses.toList.length, track.countBefore t = i + 1 ∧
        track.poses.toList[i].timestamp < t ∧ t < track.poses.toList[i + 1].timestamp := by
  have hupper := countBefore_lt_length h
  have hafter := le_time_of_countBefore Pose.timestamp hupper rfl
  rcases Int64.lt_or_eq_of_le hafter with hlt | heq
  · have hpos := countBefore_pos h fun heq => Int64.lt_irrefl (heq ▸ hlt)
    obtain ⟨i, hi⟩ := Nat.exists_eq_add_one.2 hpos
    have hbefore := time_lt_of_countBefore Pose.timestamp (t := t) (by omega) hi
    refine .inr ⟨i, by omega, hi, hbefore, ?_⟩
    simpa only [← hi] using hlt
  · exact .inl ⟨hupper, heq.symm⟩

theorem between_unique {j : Nat} (hi : i + 1 < track.poses.toList.length)
    (hj : j + 1 < track.poses.toList.length) (hilt : track.poses.toList[i].timestamp < t)
    (hti : t < track.poses.toList[i + 1].timestamp) (hjlt : track.poses.toList[j].timestamp < t)
    (htj : t < track.poses.toList[j + 1].timestamp) : i = j := by
  have hij := (track.poses.time_lt_time_iff (by omega) hj).1 (Int64.lt_trans hilt htj)
  have hji := (track.poses.time_lt_time_iff (by omega) hi).1 (Int64.lt_trans hjlt hti)
  omega

/-- A time strictly between two words is a word away from the lower one if they are so from each
other. -/
theorem toInt_sub_of_between {lower upper : Pose α} (hlower : lower.timestamp < t)
    (hupper : t < upper.timestamp) (hspan : lower.SpanFits upper) :
    (t - lower.timestamp).toInt = t.toInt - lower.timestamp.toInt ∧
      (upper.timestamp - lower.timestamp).toInt =
        upper.timestamp.toInt - lower.timestamp.toInt := by
  rw [Int64.lt_iff_toInt_lt] at hlower hupper
  rw [Pose.SpanFits, Int64.toInt_maxValue] at hspan
  rw [Int64.toInt_sub, Int64.toInt_sub]
  constructor <;> refine Int.bmod_eq_of_le ?_ ?_ <;> omega

def map (track : Track α) (f : Pose α → Pose α)
    (h : ∀ pose, (f pose).timestamp = pose.timestamp) : Track α where
  poses := track.poses.map f h
  nonempty := by simpa using track.nonempty

section map

variable (track) (f : Pose α → Pose α) (h : ∀ pose, (f pose).timestamp = pose.timestamp)

@[simp] theorem first_map : (track.map f h).first = track.first := by
  simp [first, map, h]

@[simp] theorem last_map : (track.map f h).last = track.last := by
  simp [last, map, h]

@[simp] theorem contains_map : (track.map f h).contains t = track.contains t := by
  simp [contains]

theorem bracket_map : (track.map f h).bracket t = (track.bracket t).map (Bracket.map f) := by
  have hlength : (track.map f h).poses.toList.length = track.poses.toList.length := by simp [map]
  have hget : ∀ i (hi : i < (track.map f h).poses.toList.length),
      (track.map f h).poses.toList[i] = f (track.poses.toList[i]) := by simp [map]
  cases hcontains : track.contains t with
  | false =>
    rw [bracket_of_not_contains hcontains, bracket_of_not_contains (by simpa using hcontains)]
    simp [Except.map]
  | true =>
    rcases countBefore_cases hcontains with ⟨hi, ht⟩ | ⟨i, hi, _, hlower, hupper⟩
    · rw [bracket_of_stored hi ht, bracket_of_stored (hlength ▸ hi) (by rw [hget, h, ht]), hget]
      rfl
    · rw [bracket_of_between hi hlower hupper, bracket_of_between (hlength ▸ hi)
        (by rw [hget, h]; exact hlower) (by rw [hget, h]; exact hupper), hget, hget]
      rfl

end map

/-- An answer that fails for times out of the range and for no other cause. -/
def FailsOutOfRange {β : Type} (track : Track α) (t : Int64) (answer : Except (EvalError α) β) :
    Prop :=
  ∀ error, answer = .error error ↔
    track.contains t = false ∧ error = .outOfRange t track.first track.last

theorem failsOutOfRange_of_ok {β : Type} {answer : Except (EvalError α) β} {b : β}
    (h : track.contains t = true) (hanswer : answer = .ok b) : track.FailsOutOfRange t answer := by
  intro error
  simp [h, hanswer]

theorem failsOutOfRange_of_error {β : Type} {answer : Except (EvalError α) β}
    (h : track.contains t = false)
    (hanswer : answer = .error (.outOfRange t track.first track.last)) :
    track.FailsOutOfRange t answer := by
  intro error
  simp [h, hanswer, eq_comm]

theorem FailsOutOfRange.exists_ok_iff {β : Type} {answer : Except (EvalError α) β}
    (h : track.FailsOutOfRange t answer) :
    (∃ b, answer = .ok b) ↔ track.contains t = true := by
  cases answer with
  | ok b =>
    refine iff_of_true ⟨b, rfl⟩ (eq_true_of_ne_false fun hout => ?_)
    cases (h _).2 ⟨hout, rfl⟩
  | error error =>
    have hout := ((h error).1 rfl).1
    refine iff_of_false (fun ⟨_, hok⟩ => nomatch hok) ?_
    rw [hout]
    exact Bool.false_ne_true

variable [Scalar α]

/-- All that a track says of a time. -/
structure Answers (track : Track α) (t : Int64) (position : Vector3 α)
    (orientation : Quaternion α) : Prop where
  positionAt_eq : track.positionAt t = .ok position
  orientationAt_eq : track.orientationAt t = .ok orientation
  poseAt_eq : track.poseAt t = .ok ⟨t, position, orientation⟩

theorem answers_of_stored (h : i < track.poses.toList.length)
    (ht : track.poses.toList[i].timestamp = t) :
    track.Answers t track.poses.toList[i].position track.poses.toList[i].orientation := by
  have hposition : track.positionAt t = .ok track.poses.toList[i].position := by
    rw [positionAt, bracket_of_stored h ht]
    rfl
  have horientation : track.orientationAt t = .ok track.poses.toList[i].orientation := by
    rw [orientationAt, bracket_of_stored h ht]
    rfl
  refine ⟨hposition, horientation, ?_⟩
  rw [poseAt, hposition, horientation]
  rfl

theorem answers_of_between (h : i + 1 < track.poses.toList.length)
    (hlower : track.poses.toList[i].timestamp < t)
    (hupper : t < track.poses.toList[i + 1].timestamp) :
    track.Answers t
      (track.poses.toList[i].position.lerp track.poses.toList[i + 1].position
        (fraction track.poses.toList[i] track.poses.toList[i + 1] t))
      (track.poses.toList[i].orientation.lerp track.poses.toList[i + 1].orientation
        (fraction track.poses.toList[i] track.poses.toList[i + 1] t)) := by
  have hbracket := bracket_of_between h hlower hupper
  refine ⟨?_, ?_, ?_⟩
  · rw [positionAt, hbracket]
    rfl
  · rw [orientationAt, hbracket]
    rfl
  · rw [poseAt, positionAt, orientationAt, hbracket]
    rfl

theorem exists_answers (h : track.contains t = true) :
    ∃ position orientation, track.Answers t position orientation := by
  rcases countBefore_cases h with ⟨hi, ht⟩ | ⟨i, hi, _, hlower, hupper⟩
  · exact ⟨_, _, answers_of_stored hi ht⟩
  · exact ⟨_, _, answers_of_between hi hlower hupper⟩

theorem failsOutOfRange (track : Track α) (t : Int64) :
    track.FailsOutOfRange t (track.positionAt t) ∧
      track.FailsOutOfRange t (track.orientationAt t) ∧
      track.FailsOutOfRange t (track.poseAt t) := by
  cases h : track.contains t with
  | true =>
    obtain ⟨position, orientation, hanswers⟩ := exists_answers h
    exact ⟨failsOutOfRange_of_ok h hanswers.positionAt_eq,
      failsOutOfRange_of_ok h hanswers.orientationAt_eq,
      failsOutOfRange_of_ok h hanswers.poseAt_eq⟩
  | false =>
    have hbracket := bracket_of_not_contains h
    refine ⟨failsOutOfRange_of_error h ?_, failsOutOfRange_of_error h ?_,
      failsOutOfRange_of_error h ?_⟩
    · rw [positionAt, hbracket]
      rfl
    · rw [orientationAt, hbracket]
      rfl
    · rw [poseAt, positionAt, hbracket]
      rfl

theorem answers_of_poseAt {pose : Pose α} (h : track.poseAt t = .ok pose) :
    track.Answers t pose.position pose.orientation ∧ pose.timestamp = t := by
  have hcontains := (track.failsOutOfRange t).2.2.exists_ok_iff.1 ⟨pose, h⟩
  obtain ⟨position, orientation, hanswers⟩ := exists_answers hcontains
  obtain rfl := Except.ok.inj (hanswers.poseAt_eq.symm.trans h)
  exact ⟨hanswers, rfl⟩

theorem fraction_of_spanFits {lower upper : Pose α} (hlower : lower.timestamp < t)
    (hupper : t < upper.timestamp) (hspan : lower.SpanFits upper) :
    (fraction lower upper t : α) = Scalar.ofInt (t.toInt - lower.timestamp.toInt) /
      Scalar.ofInt (upper.timestamp.toInt - lower.timestamp.toInt) := by
  obtain ⟨hpassed, hwhole⟩ := toInt_sub_of_between hlower hupper hspan
  rw [fraction, hpassed, hwhole]

/-- A track answers exactly the times of its range: a stored time with the stored pose, and any other
one by interpolation between the only two neighbours around it. The search never leaves the poses,
and the two times it divides by are apart. -/
theorem query_eq (track : Track α) (t : Int64) :
    (track.contains t = false ↔ t < track.first ∨ track.last < t) ∧
      (track.FailsOutOfRange t (track.positionAt t) ∧
        track.FailsOutOfRange t (track.orientationAt t) ∧
        track.FailsOutOfRange t (track.poseAt t)) ∧
      (∀ i (_ : i < track.poses.toList.length), track.poses.toList[i].timestamp = t →
        track.Answers t track.poses.toList[i].position track.poses.toList[i].orientation) ∧
      (track.contains t = true → (∀ pose ∈ track.poses.toList, pose.timestamp ≠ t) →
        ∃! i, ∃ _ : i + 1 < track.poses.toList.length,
          track.poses.toList[i].timestamp < t ∧ t < track.poses.toList[i + 1].timestamp) ∧
      (∀ i (_ : i + 1 < track.poses.toList.length) (lower upper : Pose α) (share : α),
        lower = track.poses.toList[i] → upper = track.poses.toList[i + 1] →
        lower.timestamp < t → t < upper.timestamp →
        share = Scalar.ofInt (t.toInt - lower.timestamp.toInt) /
          Scalar.ofInt (upper.timestamp.toInt - lower.timestamp.toInt) →
        0 < upper.timestamp.toInt - lower.timestamp.toInt ∧
          (lower.SpanFits upper →
            (upper.timestamp - lower.timestamp).toInt ≠ 0 ∧
            track.Answers t (positionBetween lower.position upper.position share)
              (orientationBetween lower.orientation upper.orientation share))) ∧
      (track.contains t = true →
        (∃ _ : track.countBefore t < track.poses.toList.length,
          track.poses.toList[track.countBefore t].timestamp = t) ∨
        ∃ i, ∃ _ : i + 1 < track.poses.toList.length, track.countBefore t = i + 1 ∧
          track.poses.toList[i].timestamp < t ∧ t < track.poses.toList[i + 1].timestamp) := by
  refine ⟨contains_eq_false_iff, failsOutOfRange track t, fun i hi => answers_of_stored hi,
    fun hcontains hne => ?_, ?_, countBefore_cases⟩
  · rcases countBefore_cases hcontains with ⟨hi, ht⟩ | ⟨i, hi, _, hlower, hupper⟩
    · exact absurd ht (hne _ (List.getElem_mem hi))
    · refine ⟨i, ⟨hi, hlower, hupper⟩, ?_⟩
      rintro j ⟨hj, hjlt, htj⟩
      exact between_unique hj hi hjlt htj hlower hupper
  · rintro i hi lower upper share rfl rfl hlower hupper rfl
    have hlt := Int64.lt_iff_toInt_lt.1 (Int64.lt_trans hlower hupper)
    refine ⟨by omega, fun hspan => ⟨?_, ?_⟩⟩
    · rw [(toInt_sub_of_between hlower hupper hspan).2]
      omega
    · rw [← fraction_of_spanFits hlower hupper hspan, ← lerp_eq_positionBetween,
        ← lerp_eq_orientationBetween]
      exact answers_of_between hi hlower hupper

def halfTurn : Track Float where
  poses := ⟨[⟨0, .zero, .identity⟩, ⟨Int64.maxValue, ⟨1.0, 0.0, 0.0⟩, ⟨0.0, 1.0, 0.0, 0.0⟩⟩],
    by decide⟩
  nonempty := by decide

theorem query_eq_halfTurn :
    halfTurn.SpansFit ∧
      halfTurn.positionAt (-1) = .error (.outOfRange (-1) 0 Int64.maxValue) ∧
      halfTurn.Answers Int64.maxValue ⟨1.0, 0.0, 0.0⟩ ⟨0.0, 1.0, 0.0, 0.0⟩ ∧
      halfTurn.Answers 4611686018427387904 ⟨0.5, 0.0, 0.0⟩
        ⟨0.7071067811865475, 0.7071067811865475, 0.0, 0.0⟩ := by
  have hspans : halfTurn.SpansFit := List.isChain_pair.2 (by decide)
  have hbefore := query_eq halfTurn (-1)
  have hlast := query_eq halfTurn Int64.maxValue
  have hinside := query_eq halfTurn 4611686018427387904
  refine ⟨hspans, (hbefore.2.1.1 _).2 ⟨by decide, rfl⟩, hlast.2.2.1 1 (by decide) rfl, ?_⟩
  have hanswers := ((hinside.2.2.2.2.1 0 (by decide) _ _ _ rfl rfl (by decide) (by decide) rfl).2
    (hspans.getElem (by decide))).2
  have hposition : positionBetween .zero ⟨1.0, 0.0, 0.0⟩ (0.5 : Float) = ⟨0.5, 0.0, 0.0⟩ := by
    decide +kernel
  have horientation : orientationBetween .identity ⟨0.0, 1.0, 0.0, 0.0⟩ (0.5 : Float) =
      ⟨0.7071067811865475, 0.7071067811865475, 0.0, 0.0⟩ := by
    decide +kernel
  have hshare : (Scalar.ofInt 4611686018427387904 / Scalar.ofInt 9223372036854775807 : Float) =
      0.5 := by
    decide +kernel
  rw [← hposition, ← horientation, ← hshare]
  exact hanswers

end Track
end TrackingScore
