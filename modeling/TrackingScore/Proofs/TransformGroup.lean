import Mathlib.LinearAlgebra.Matrix.Notation
import TrackingScore.Proofs.Exact.RigidTransform
import TrackingScore.Proofs.Exact.UnitQuaternion

/-!
The group of rigid transforms with unit rotation. To apply a product is to apply its factors one
after the other, whatever they are applied to, and to multiply their homogeneous matrices.
-/

namespace TrackingScore.RigidTransform

open Matrix

theorem identity_def : (identity : RigidTransform ℝ) = ⟨.zero, .identity⟩ := rfl

theorem mul_def (A B : RigidTransform ℝ) :
    A * B = ⟨A.translation + A.rotation.rotate B.translation, A.rotation * B.rotation⟩ := rfl

theorem inverse_def (A : RigidTransform ℝ) :
    A.inverse = ⟨A.rotation.conjugate.rotate (-A.translation), A.rotation.conjugate⟩ := rfl

theorem transformPose_def (A : RigidTransform ℝ) (pose : Pose ℝ) :
    A.transformPose pose =
      ⟨pose.timestamp, A.transformPoint pose.position, A.transformOrientation pose.orientation⟩ :=
  rfl

variable {A B : RigidTransform ℝ}

section actions

theorem identity_transformPoint (p : Vector3 ℝ) : identity.transformPoint p = p := by
  rw [transformPoint_def, identity_def, Quaternion.rotate_identity, Vector3.zero_def]
  ext <;> simp only [Vector3.add_def, add_zero]

theorem identity_transformOrientation (q : Quaternion ℝ) : identity.transformOrientation q = q := by
  rw [transformOrientation_def, identity_def, Quaternion.identity_mul]

theorem identity_transformPose (pose : Pose ℝ) : identity.transformPose pose = pose := by
  rw [transformPose_def, identity_transformPoint, identity_transformOrientation]

theorem mul_rotateVector (hA : A.rotation.dot A.rotation = 1) (hB : B.rotation.dot B.rotation = 1)
    (v : Vector3 ℝ) : (A * B).rotateVector v = A.rotateVector (B.rotateVector v) :=
  Quaternion.rotate_mul hA hB v

theorem mul_transformPoint (hA : A.rotation.dot A.rotation = 1)
    (hB : B.rotation.dot B.rotation = 1) (p : Vector3 ℝ) :
    (A * B).transformPoint p = A.transformPoint (B.transformPoint p) := by
  have hrotate := Quaternion.rotate_mul hA hB p
  rw [transformPoint_def, mul_def, hrotate, B.transformPoint_def, transformPoint_add]
  ext <;> simp only [transformPoint_def, Vector3.add_def] <;> ring

theorem mul_transformOrientation (A B : RigidTransform ℝ) (q : Quaternion ℝ) :
    (A * B).transformOrientation q = A.transformOrientation (B.transformOrientation q) :=
  Quaternion.mul_assoc A.rotation B.rotation q

theorem mul_transformPose (hA : A.rotation.dot A.rotation = 1)
    (hB : B.rotation.dot B.rotation = 1) (pose : Pose ℝ) :
    (A * B).transformPose pose = A.transformPose (B.transformPose pose) := by
  rw [transformPose_def, mul_transformPoint hA hB, mul_transformOrientation]
  rfl

/-- A transform and a product act as they should in a group: the identity keeps everything, and a
product does what its factors do one after the other. -/
structure ActsBy {X : Type} (act : RigidTransform ℝ → X → X) (A B : RigidTransform ℝ) : Prop where
  identity : ∀ x, act .identity x = x
  mul : ∀ x, act (A * B) x = act A (act B x)

theorem actsBy_transformStream (h : ActsBy transformPose A B) :
    ActsBy transformStream A B where
  identity stream := by
    have hposes : transformPose (.identity : RigidTransform ℝ) = id := funext h.identity
    apply Series.ext
    rw [transformStream_toList, hposes, List.map_id]
  mul stream := by
    have hposes : (A * B).transformPose = A.transformPose ∘ B.transformPose := funext h.mul
    apply Series.ext
    rw [transformStream_toList, hposes, ← List.map_map]
    rfl

end actions

section group

theorem mul_mul (hA : A.rotation.dot A.rotation = 1) (hB : B.rotation.dot B.rotation = 1)
    (C : RigidTransform ℝ) : A * B * C = A * (B * C) := by
  have hrotation : (A * B * C).rotation = (A * (B * C)).rotation :=
    Quaternion.mul_assoc A.rotation B.rotation C.rotation
  have htranslation : (A * B * C).translation = (A * (B * C)).translation := by
    simp only [mul_def, Quaternion.rotate_mul hA hB, Quaternion.rotate_add]
    ext <;> simp only [Vector3.add_def, add_assoc]
  exact congrArg₂ RigidTransform.mk htranslation hrotation

theorem identity_mul (A : RigidTransform ℝ) : identity * A = A := by
  rw [mul_def, identity_def, Quaternion.rotate_identity, Quaternion.identity_mul, Vector3.zero_def]
  simp only [Vector3.add_def, zero_add]

theorem mul_identity (A : RigidTransform ℝ) : A * identity = A := by
  have hrotate : A.rotation.rotate .zero = .zero := by
    rw [Vector3.zero_def]
    ext <;> simp only [Quaternion.rotate_def, Vector3.add_def, Vector3.scale_def,
      Vector3.cross_def] <;> ring
  rw [mul_def, identity_def, hrotate, Quaternion.mul_identity, Vector3.zero_def]
  simp only [Vector3.add_def, add_zero]

theorem inverse_mul_self (hA : A.rotation.dot A.rotation = 1) : A.inverse * A = identity := by
  have htranslation : A.rotation.conjugate.rotate (-A.translation) +
      A.rotation.conjugate.rotate A.translation = .zero := by
    rw [Quaternion.rotate_neg, Vector3.zero_def]
    ext <;> simp only [Vector3.add_def, Vector3.neg_def, neg_add_cancel]
  rw [mul_def, inverse_def, htranslation, Quaternion.conjugate_mul_self hA, identity_def]

theorem mul_inverse_self (hA : A.rotation.dot A.rotation = 1) : A * A.inverse = identity := by
  have htranslation : A.translation + -A.translation = .zero := by
    rw [Vector3.zero_def]
    ext <;> simp only [Vector3.add_def, Vector3.neg_def, add_neg_cancel]
  rw [mul_def, inverse_def, Quaternion.rotate_rotate_conjugate hA, htranslation,
    Quaternion.mul_conjugate_self hA, identity_def]

end group

section matrices

/-- The homogeneous matrix, an entry outside the listed rows being zero. -/
noncomputable def toMatrix (T : RigidTransform ℝ) : Matrix (Fin 4) (Fin 4) ℝ :=
  .of fun i j => (T.matrix[i]?.bind fun row => row[j]?).getD 0

theorem matrix_eq_ofFn (T : RigidTransform ℝ) :
    T.matrix = List.ofFn fun i => List.ofFn fun j => T.toMatrix i j := by
  simp [toMatrix, matrix, List.ofFn_succ]

theorem toMatrix_mk (t : Vector3 ℝ) (q : Quaternion ℝ) :
    toMatrix ⟨t, q⟩ =
      !![q.w * q.w + q.x * q.x - q.y * q.y - q.z * q.z, q.x * q.y * 2 - q.w * q.z * 2,
          q.w * q.y * 2 + q.x * q.z * 2, t.x;
        q.w * q.z * 2 + q.x * q.y * 2, q.w * q.w - q.x * q.x + q.y * q.y - q.z * q.z,
          q.y * q.z * 2 - q.w * q.x * 2, t.y;
        q.x * q.z * 2 - q.w * q.y * 2, q.w * q.x * 2 + q.y * q.z * 2,
          q.w * q.w - q.x * q.x - q.y * q.y + q.z * q.z, t.z;
        0, 0, 0, 1] := by
  ext i j
  fin_cases i <;> fin_cases j <;> simp [toMatrix, matrix] <;> norm_num

noncomputable def homogeneous (v : Vector3 ℝ) (weight : ℝ) : Fin 4 → ℝ := ![v.x, v.y, v.z, weight]

theorem homogeneous_surjective (x : Fin 4 → ℝ) : homogeneous ⟨x 0, x 1, x 2⟩ (x 3) = x := by
  funext i
  fin_cases i <;> rfl

/-- The entries of the matrix are quadratic in the rotation, and agree with the double cross product
for a unit rotation only. -/
theorem toMatrix_mulVec (hA : A.rotation.dot A.rotation = 1) (v : Vector3 ℝ) (weight : ℝ) :
    A.toMatrix *ᵥ homogeneous v weight =
      homogeneous (A.rotation.rotate v + A.translation.scale weight) weight := by
  obtain ⟨t, q⟩ := A
  rw [Quaternion.dot_def] at hA
  rw [toMatrix_mk]
  simp only [Quaternion.rotate_def, Quaternion.imaginary_def, Vector3.add_def, Vector3.scale_def,
    Vector3.cross_def]
  funext i
  fin_cases i <;> simp [homogeneous, Matrix.mulVec, dotProduct, Fin.sum_univ_four]
  · linear_combination v.x * hA
  · linear_combination v.y * hA
  · linear_combination v.z * hA

theorem toMatrix_mulVec_point (hA : A.rotation.dot A.rotation = 1) (p : Vector3 ℝ) :
    A.toMatrix *ᵥ homogeneous p 1 = homogeneous (A.transformPoint p) 1 := by
  rw [toMatrix_mulVec hA, Vector3.scale_one, transformPoint_def]

theorem toMatrix_mul (hA : A.rotation.dot A.rotation = 1) (hB : B.rotation.dot B.rotation = 1) :
    (A * B).toMatrix = A.toMatrix * B.toMatrix := by
  apply Matrix.ext_iff_mulVec.2
  intro x
  obtain ⟨v, weight, rfl⟩ : ∃ v weight, homogeneous v weight = x :=
    ⟨_, _, homogeneous_surjective x⟩
  have hvector : (A.rotation * B.rotation).rotate v +
      (A.translation + A.rotation.rotate B.translation).scale weight =
        A.rotation.rotate (B.rotation.rotate v + B.translation.scale weight) +
          A.translation.scale weight := by
    rw [Quaternion.rotate_mul hA hB, Quaternion.rotate_add, Quaternion.rotate_scale]
    ext <;> simp only [Vector3.add_def, Vector3.scale_def] <;> ring
  have hAB : (A * B).rotation.dot (A * B).rotation = 1 := Quaternion.dot_self_mul hA hB
  rw [← Matrix.mulVec_mulVec, toMatrix_mulVec hB, toMatrix_mulVec hA, toMatrix_mulVec hAB, mul_def,
    hvector]

end matrices

/-- The rigid transforms with unit rotation are a group. It acts on points, directions,
orientations, poses and streams, a stream keeping its times, and the homogeneous matrices represent
it. -/
theorem group_action_laws (A B C : RigidTransform ℝ) (hA : A.rotation.norm = 1)
    (hB : B.rotation.norm = 1) :
    (ActsBy transformPoint A B ∧ ActsBy rotateVector A B ∧ ActsBy transformOrientation A B ∧
        ActsBy transformPose A B ∧ ActsBy transformStream A B) ∧
      (A * B * C = A * (B * C) ∧ identity * A = A ∧ A * identity = A ∧
        A.inverse * A = identity ∧ A * A.inverse = identity) ∧
      ((identity : RigidTransform ℝ).rotation.norm = 1 ∧ (A * B).rotation.norm = 1 ∧
        A.inverse.rotation.norm = 1) ∧
      (∀ stream : PoseStream ℝ, (A.transformStream stream).times = stream.times ∧
        (A.transformStream stream).length = stream.length) ∧
      (A.matrix = List.ofFn fun i => List.ofFn fun j => A.toMatrix i j) ∧
      (∀ p, A.toMatrix *ᵥ homogeneous p 1 = homogeneous (A.transformPoint p) 1) ∧
      (A * B).toMatrix = A.toMatrix * B.toMatrix := by
  rw [Quaternion.norm_eq_one_iff] at hA hB
  have hposes : ActsBy transformPose A B := ⟨identity_transformPose, mul_transformPose hA hB⟩
  refine ⟨⟨⟨identity_transformPoint, mul_transformPoint hA hB⟩,
      ⟨Quaternion.rotate_identity, mul_rotateVector hA hB⟩,
      ⟨identity_transformOrientation, mul_transformOrientation A B⟩, hposes,
      actsBy_transformStream hposes⟩,
    ⟨mul_mul hA hB C, identity_mul A, mul_identity A, inverse_mul_self hA, mul_inverse_self hA⟩,
    ⟨?_, ?_, ?_⟩, ?_, A.matrix_eq_ofFn, toMatrix_mulVec_point hA, toMatrix_mul hA hB⟩
  · exact Quaternion.norm_eq_one_iff.2 Quaternion.dot_identity
  · exact Quaternion.norm_eq_one_iff.2 (Quaternion.dot_self_mul hA hB)
  · exact Quaternion.norm_eq_one_iff.2 (A.rotation.dot_conjugate.trans hA)
  · intro stream
    exact ⟨Series.times_map stream _ _, List.length_map _⟩

noncomputable def roll : RigidTransform ℝ := ⟨⟨0.0, 1.0, -1.0⟩, ⟨0.6, 0.8, 0.0, 0.0⟩⟩

noncomputable def yaw : RigidTransform ℝ := ⟨⟨2.0, 0.0, 1.0⟩, ⟨0.8, 0.0, 0.0, 0.6⟩⟩

theorem group_action_laws_roll_yaw :
    roll.rotation.norm = 1 ∧ yaw.rotation.norm = 1 ∧
      (roll * yaw).transformPoint ⟨1, 0, 0⟩ = ⟨57 / 25, -143 / 625, -224 / 625⟩ ∧
      roll * yaw * roll = roll * (yaw * roll) ∧ roll * roll.inverse = identity ∧
      (roll * yaw).toMatrix = roll.toMatrix * yaw.toMatrix := by
  have hroll : roll.rotation.norm = 1 := by
    rw [Quaternion.norm_eq_one_iff, Quaternion.dot_def, roll]
    norm_num
  have hyaw : yaw.rotation.norm = 1 := by
    rw [Quaternion.norm_eq_one_iff, Quaternion.dot_def, yaw]
    norm_num
  obtain ⟨⟨hpoint, _⟩, ⟨hassoc, _, _, _, hinverse⟩, _, _, _, _, hmatrix⟩ :=
    group_action_laws roll yaw roll hroll hyaw
  refine ⟨hroll, hyaw, ?_, hassoc, hinverse, hmatrix⟩
  rw [hpoint.mul, transformPoint_def, transformPoint_def, roll, yaw]
  ext <;> norm_num [Quaternion.rotate_def, Quaternion.imaginary_def, Vector3.add_def,
    Vector3.scale_def, Vector3.cross_def]

end TrackingScore.RigidTransform
