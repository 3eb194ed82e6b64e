import TrackingScore.Proofs.Exact.AxisAngle
import TrackingScore.Proofs.FrameOfReference
import TrackingScore.Proofs.OppositeOrientations

/-!
The distance of two orientations is the angle of the rotation between them. It does not tell a
quaternion from its negative, which is the same rotation, so no score depends on the signs with which
orientations are written.
-/

namespace TrackingScore

open Real

namespace Quaternion

variable {a b q r : Quaternion ℝ}

theorem dot_comm (a b : Quaternion ℝ) : a.dot b = b.dot a := by
  simp only [dot_def]
  ring

theorem neg_dot (a b : Quaternion ℝ) : (-a).dot b = -a.dot b := by
  simp only [neg_def, dot_def]
  ring

theorem mul_dot_mul (a b r : Quaternion ℝ) : (a * r).dot (b * r) = a.dot b * r.dot r := by
  simp only [mul_def, dot_def]
  ring

theorem conjugate_mul_w (a b : Quaternion ℝ) : (a.conjugate * b).w = a.dot b := by
  simp only [conjugate_def, mul_def, dot_def]
  ring

theorem eq_of_dot_eq_one (ha : a.dot a = 1) (hb : b.dot b = 1) (h : a.dot b = 1) : b = a := by
  have hdifference : (b - a).dot (b - a) = 0 := by
    have hexpand : (b - a).dot (b - a) = b.dot b - 2 * a.dot b + a.dot a := by
      simp only [sub_def, dot_def]
      ring
    rw [hexpand, ha, hb, h]
    norm_num
  have hzero : b - a = ⟨0, 0, 0, 0⟩ := by
    rw [← norm_eq_zero_iff, norm_def, hdifference, sqrt_zero]
  simp only [sub_def, mk.injEq, sub_eq_zero] at hzero
  ext
  exacts [hzero.1, hzero.2.1, hzero.2.2.1, hzero.2.2.2]

theorem w_mul_w_le_one (h : q.dot q = 1) : q.w * q.w ≤ 1 := by
  rw [← h, dot_def]
  linarith [mul_self_nonneg q.x, mul_self_nonneg q.y, mul_self_nonneg q.z]

theorem dot_mul_dot_le_one (ha : a.dot a = 1) (hb : b.dot b = 1) : a.dot b * a.dot b ≤ 1 := by
  rw [← conjugate_mul_w]
  exact w_mul_w_le_one (dot_self_mul (a.dot_conjugate.trans ha) hb)

theorem angle_eq_arccos (h : q.dot q = 1) : q.angle = arccos (2 * q.w * q.w - 1) := by
  have himaginary : q.imaginary.dot q.imaginary = 1 - |q.w| ^ 2 := by
    rw [sq_abs, imaginary_def, Vector3.dot_def, ← h, dot_def]
    ring
  have hle : |q.w| ≤ 1 := abs_le_one_iff_mul_self_le_one.2 (w_mul_w_le_one h)
  have hcos : cos (arccos |q.w|) = |q.w| := cos_arccos (by linarith [abs_nonneg q.w]) hle
  have hsin : sin (arccos |q.w|) = q.imaginary.norm := by
    rw [sin_arccos, Vector3.norm_def, himaginary]
  have hhalf : arccos |q.w| ≤ π / 2 := arccos_le_pi_div_two.2 (abs_nonneg _)
  have hdouble : cos (arccos |q.w| * 2) = 2 * q.w * q.w - 1 := by
    rw [mul_comm, cos_two_mul, hcos, sq_abs]
    ring
  have harg := arg_cos_sin ⟨arccos_nonneg |q.w|, arccos_le_pi _⟩
  rw [hcos, hsin] at harg
  rw [angle_def, harg, ← hdouble, arccos_cos (by linarith [arccos_nonneg |q.w|]) (by linarith)]

end Quaternion

section distance

variable {p q r : Quaternion ℝ}

theorem orientationError_mem_Icc (p q : Quaternion ℝ) : orientationError p q ∈ Set.Icc 0 π := by
  rw [orientationError_def]
  exact ⟨arccos_nonneg _, arccos_le_pi _⟩

theorem orientationError_comm (p q : Quaternion ℝ) : orientationError p q = orientationError q p := by
  rw [orientationError_def, orientationError_def, Quaternion.dot_comm]

theorem orientationError_neg_left (p q : Quaternion ℝ) :
    orientationError (-p) q = orientationError p q := by
  rw [orientationError_def, orientationError_def, Quaternion.neg_dot, mul_assoc, neg_mul_neg,
    ← mul_assoc]

theorem orientationError_neg_right (p q : Quaternion ℝ) :
    orientationError p (-q) = orientationError p q := by
  rw [orientationError_comm, orientationError_neg_left, orientationError_comm]

theorem orientationError_eq_zero_iff (hp : p.dot p = 1) (hq : q.dot q = 1) :
    orientationError p q = 0 ↔ q = p ∨ q = -p := by
  constructor
  · intro h
    rw [orientationError_def, arccos_eq_zero] at h
    have hsquare : p.dot q * p.dot q = 1 :=
      le_antisymm (Quaternion.dot_mul_dot_le_one hp hq) (by linarith)
    rcases mul_self_eq_one_iff.1 hsquare with hone | hminus
    · exact .inl (Quaternion.eq_of_dot_eq_one hp hq hone)
    · have hnegated : (-p).dot (-p) = 1 := by
        rw [Quaternion.neg_dot, Quaternion.dot_comm, Quaternion.neg_dot, neg_neg, hp]
      refine .inr (Quaternion.eq_of_dot_eq_one hnegated hq ?_)
      rw [Quaternion.neg_dot, hminus, neg_neg]
  · rintro (rfl | rfl)
    · exact orientationError_self hp
    · rw [orientationError_neg_right, orientationError_self hp]

theorem orientationError_eq_angle (hp : p.dot p = 1) (hq : q.dot q = 1) (translation : Vector3 ℝ) :
    (⟨translation, p.conjugate * q⟩ : RigidTransform ℝ).angle = orientationError p q := by
  have hunit : (p.conjugate * q).dot (p.conjugate * q) = 1 :=
    Quaternion.dot_self_mul (p.dot_conjugate.trans hp) hq
  rw [RigidTransform.angle, Quaternion.angle_eq_arccos hunit, Quaternion.conjugate_mul_w,
    orientationError_def]

/-- The laws of a distance on rotations: it is the angle of the rotation that leads from the one to the
other, and takes no notice of signs and of what both are multiplied by. -/
structure DistanceLaws (p q r : Quaternion ℝ) : Prop where
  mem_Icc : orientationError p q ∈ Set.Icc 0 π
  comm : orientationError p q = orientationError q p
  neg_left : orientationError (-p) q = orientationError p q
  neg_right : orientationError p (-q) = orientationError p q
  eq_zero_iff : orientationError p q = 0 ↔ q = p ∨ q = -p
  mul_left : orientationError (r * p) (r * q) = orientationError p q
  mul_right : orientationError (p * r) (q * r) = orientationError p q
  eq_angle : ∀ translation,
    (⟨translation, p.conjugate * q⟩ : RigidTransform ℝ).angle = orientationError p q

theorem distanceLaws (hp : p.dot p = 1) (hq : q.dot q = 1) (hr : r.dot r = 1) :
    DistanceLaws p q r where
  mem_Icc := orientationError_mem_Icc p q
  comm := orientationError_comm p q
  neg_left := orientationError_neg_left p q
  neg_right := orientationError_neg_right p q
  eq_zero_iff := orientationError_eq_zero_iff hp hq
  mul_left := by
    rw [orientationError_def, orientationError_def, Quaternion.dot_mul_mul, hr, one_mul]
  mul_right := by
    rw [orientationError_def, orientationError_def, Quaternion.mul_dot_mul, hr, mul_one]
  eq_angle := orientationError_eq_angle hp hq

end distance

section signs

variable {α : Type} [Scalar α]

def Pose.opposite (pose : Pose α) : Pose α := { pose with orientation := -pose.orientation }

@[simp] theorem Pose.opposite_timestamp (pose : Pose α) :
    pose.opposite.timestamp = pose.timestamp := rfl

def Pose.oppositeIf (chosen : Pose α → Bool) (pose : Pose α) : Pose α :=
  if chosen pose then pose.opposite else pose

@[simp] theorem Pose.oppositeIf_timestamp (chosen : Pose α → Bool) (pose : Pose α) :
    (pose.oppositeIf chosen).timestamp = pose.timestamp := by
  unfold oppositeIf
  split <;> rfl

def PoseStream.oppositeWhere (chosen : Pose α → Bool) (stream : PoseStream α) : PoseStream α :=
  stream.map (Pose.oppositeIf chosen) (Pose.oppositeIf_timestamp chosen)

def Track.opposite (track : Track α) : Track α := track.map Pose.opposite Pose.opposite_timestamp

end signs

/-- A transform that moves nothing, and yet multiplies orientations by minus one. -/
noncomputable def RigidTransform.minusOne : RigidTransform ℝ := ⟨.zero, -.identity⟩

theorem RigidTransform.dot_minusOne : minusOne.rotation.dot minusOne.rotation = 1 := by
  simp only [minusOne, Quaternion.identity_def, Quaternion.neg_def, Quaternion.dot_def]
  norm_num

theorem Pose.opposite_eq (pose : Pose ℝ) :
    pose.opposite = RigidTransform.minusOne.transformPose pose := by
  have hposition : RigidTransform.minusOne.transformPoint pose.position = pose.position := by
    ext <;> simp [RigidTransform.transformPoint_def, RigidTransform.minusOne, Vector3.zero_def,
      Quaternion.identity_def, Quaternion.neg_def, Quaternion.rotate_def, Quaternion.imaginary_def,
      Vector3.add_def, Vector3.scale_def, Vector3.cross_def]
  have horientation :
      RigidTransform.minusOne.transformOrientation pose.orientation = -pose.orientation := by
    ext <;> simp [RigidTransform.transformOrientation_def, RigidTransform.minusOne,
      Quaternion.identity_def, Quaternion.neg_def, Quaternion.mul_def]
  rw [RigidTransform.transformPose, hposition, horientation]
  rfl

namespace Track

theorem errorOf_opposite (track : Track ℝ) (pose : Pose ℝ) :
    track.errorOf pose.opposite = track.errorOf pose := by
  simp only [errorOf, Pose.opposite, orientationError_neg_left]

theorem errorOf_oppositeIf (track : Track ℝ) (chosen : Pose ℝ → Bool) (pose : Pose ℝ) :
    track.errorOf (pose.oppositeIf chosen) = track.errorOf pose := by
  unfold Pose.oppositeIf
  split
  · exact track.errorOf_opposite pose
  · rfl

theorem opposite_eq_transform (track : Track ℝ) :
    track.opposite = track.transform RigidTransform.minusOne := by
  have hposes : Pose.opposite = RigidTransform.minusOne.transformPose := funext Pose.opposite_eq
  simp only [opposite, transform, hposes]

theorem opposite_errorOf (track : Track ℝ) (pose : Pose ℝ) :
    track.opposite.errorOf pose = track.errorOf pose := by
  rw [← errorOf_opposite, Pose.opposite_eq, opposite_eq_transform,
    errorOf_transform RigidTransform.dot_minusOne]

theorem evaluate_oppositeWhere (track : Track ℝ) (chosen : Pose ℝ → Bool)
    (estimated : PoseStream ℝ) :
    track.evaluate (estimated.oppositeWhere chosen) = track.evaluate estimated :=
  evaluate_map _ (track.errorOf_oppositeIf chosen) estimated

theorem opposite_evaluate (track : Track ℝ) (estimated : PoseStream ℝ) :
    track.opposite.evaluate estimated = track.evaluate estimated := by
  rw [evaluate, evaluate, funext track.opposite_errorOf]

end Track

/-- The error of an orientation is a distance on rotations, and as an angle the one of the rotation in
between. Signs have no part in it, so the outcome of an evaluation is the same whichever estimated
orientations, or all those of the reference, are written with the other sign. -/
theorem orientationError_distance :
    (∀ p q r : Quaternion ℝ, p.norm = 1 → q.norm = 1 → r.norm = 1 → DistanceLaws p q r) ∧
      ∀ (track : Track ℝ) (estimated : PoseStream ℝ),
        (∀ chosen, track.evaluate (estimated.oppositeWhere chosen) = track.evaluate estimated) ∧
          track.opposite.evaluate estimated = track.evaluate estimated := by
  simp only [Quaternion.norm_eq_one_iff]
  exact ⟨fun _ _ _ => distanceLaws, fun track estimated =>
    ⟨fun chosen => track.evaluate_oppositeWhere chosen estimated, track.opposite_evaluate estimated⟩⟩

noncomputable def halfTurn : Quaternion ℝ := ⟨0.0, 1.0, 0.0, 0.0⟩

noncomputable def partTurn : Quaternion ℝ := ⟨0.8, 0.0, 0.0, 0.6⟩

theorem orientationError_distance_halfTurn :
    (Quaternion.identity : Quaternion ℝ).norm = 1 ∧ halfTurn.norm = 1 ∧ partTurn.norm = 1 ∧
      orientationError (-(partTurn * .identity)) (partTurn * halfTurn) = π ∧
      orientationError (Quaternion.identity * partTurn) (halfTurn * partTurn) = π ∧
      (⟨.zero, Quaternion.identity.conjugate * halfTurn⟩ : RigidTransform ℝ).angle = π ∧
      Track.straight.opposite.evaluate (Track.aside.oppositeWhere fun _ => true) =
        Track.straight.evaluate Track.aside := by
  have hidentity : (Quaternion.identity : Quaternion ℝ).norm = 1 :=
    Quaternion.norm_eq_one_iff.2 Quaternion.dot_identity
  have hhalf : halfTurn.norm = 1 := by
    rw [Quaternion.norm_eq_one_iff, Quaternion.dot_def, halfTurn]
    norm_num
  have hpart : partTurn.norm = 1 := by
    rw [Quaternion.norm_eq_one_iff, Quaternion.dot_def, partTurn]
    norm_num
  have hdistance : orientationError .identity halfTurn = π := by
    rw [orientationError_def, Quaternion.identity_def, Quaternion.dot_def, halfTurn]
    norm_num
  obtain ⟨hdistances, hevaluations⟩ := orientationError_distance
  have hlaws := hdistances .identity halfTurn partTurn hidentity hhalf hpart
  refine ⟨hidentity, hhalf, hpart, ?_, hlaws.mul_right.trans hdistance,
    (hlaws.eq_angle .zero).trans hdistance, ?_⟩
  · rw [orientationError_neg_left, hlaws.mul_left, hdistance]
  · rw [(hevaluations _ _).2, (hevaluations _ _).1]

end TrackingScore
