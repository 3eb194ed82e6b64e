import TrackingScore.Alignment
import TrackingScore.Proofs.TransformGroup

/-!
The transform that takes one pose onto another. There is exactly one, and so alignments compose and
invert as the ways between three poses do.
-/

namespace TrackingScore

namespace RigidTransform

/-- The transform takes the position and the orientation of one pose onto those of another, the
quaternion with its sign. -/
structure Takes (T : RigidTransform ℝ) (a b : Pose ℝ) : Prop where
  position : T.transformPoint a.position = b.position
  orientation : T.transformOrientation a.orientation = b.orientation

variable {T U : RigidTransform ℝ} {a b c : Pose ℝ}

theorem takes_iff :
    T.Takes a b ↔ T.transformPose a = ⟨a.timestamp, b.position, b.orientation⟩ := by
  rw [transformPose_def, Pose.mk.injEq]
  exact ⟨fun h => ⟨rfl, h.position, h.orientation⟩, fun h => ⟨h.2.1, h.2.2⟩⟩

theorem Takes.mul (hT : T.rotation.dot T.rotation = 1) (hU : U.rotation.dot U.rotation = 1)
    (hbc : T.Takes b c) (hab : U.Takes a b) : (T * U).Takes a c where
  position := by rw [mul_transformPoint hT hU, hab.position, hbc.position]
  orientation := by rw [mul_transformOrientation, hab.orientation, hbc.orientation]

theorem dot_inverse (hT : T.rotation.dot T.rotation = 1) :
    T.inverse.rotation.dot T.inverse.rotation = 1 :=
  T.rotation.dot_conjugate.trans hT

theorem Takes.inverse (hT : T.rotation.dot T.rotation = 1) (h : T.Takes a b) :
    T.inverse.Takes b a where
  position := by
    rw [← h.position, ← mul_transformPoint (dot_inverse hT) hT, inverse_mul_self hT,
      identity_transformPoint]
  orientation := by
    rw [← h.orientation, ← mul_transformOrientation, inverse_mul_self hT,
      identity_transformOrientation]

end RigidTransform

namespace Pose

open RigidTransform

variable {a b c : Pose ℝ} {T : RigidTransform ℝ}

theorem alignment_def (a b : Pose ℝ) :
    a.alignment b =
      ⟨b.position - (b.orientation * a.orientation.conjugate).rotate a.position,
        b.orientation * a.orientation.conjugate⟩ :=
  rfl

section alignment

variable (ha : a.orientation.dot a.orientation = 1)
include ha

theorem dot_alignment (hb : b.orientation.dot b.orientation = 1) :
    (a.alignment b).rotation.dot (a.alignment b).rotation = 1 :=
  Quaternion.dot_self_mul hb (a.orientation.dot_conjugate.trans ha)

theorem takes_alignment (b : Pose ℝ) : (a.alignment b).Takes a b where
  position := by
    rw [transformPoint_def, alignment_def]
    ext <;> simp only [Vector3.add_def, Vector3.sub_def] <;> ring
  orientation := by
    rw [transformOrientation_def, alignment_def, Quaternion.mul_assoc,
      Quaternion.conjugate_mul_self ha, Quaternion.mul_identity]

/-- The orientations leave only one rotation, and then the positions only one translation. -/
theorem eq_alignment_of_takes (h : T.Takes a b) : T = a.alignment b := by
  obtain ⟨t, r⟩ := T
  have hrotation : r = b.orientation * a.orientation.conjugate := by
    rw [← h.orientation, transformOrientation_def, Quaternion.mul_assoc,
      Quaternion.mul_conjugate_self ha, Quaternion.mul_identity]
  have htranslation : t = b.position - r.rotate a.position := by
    rw [← h.position, transformPoint_def]
    ext <;> simp only [Vector3.add_def, Vector3.sub_def] <;> ring
  rw [htranslation, hrotation, alignment_def]

end alignment

/-- The alignment of two poses turns by a unit quaternion and takes the one pose onto the other, with
its position and its orientation, sign and all, at the time of the one. No other transform does. So
alignments from pose to pose compose, and the way back is the inverse. -/
theorem alignment_laws (a b c : Pose ℝ) (ha : a.orientation.norm = 1) (hb : b.orientation.norm = 1)
    (hc : c.orientation.norm = 1) :
    (a.alignment b).rotation.norm = 1 ∧
      (a.alignment b).transformPose a = ⟨a.timestamp, b.position, b.orientation⟩ ∧
      (∀ T : RigidTransform ℝ, T.transformPose a = ⟨a.timestamp, b.position, b.orientation⟩ →
        T = a.alignment b) ∧
      b.alignment c * a.alignment b = a.alignment c ∧ (a.alignment b).inverse = b.alignment a := by
  rw [Quaternion.norm_eq_one_iff] at ha hb hc
  have hab := dot_alignment ha hb
  have hbc := dot_alignment hb hc
  have htakes := takes_alignment ha b
  refine ⟨Quaternion.norm_eq_one_iff.2 hab, takes_iff.1 htakes, fun T hT => ?_, ?_, ?_⟩
  · exact eq_alignment_of_takes ha (takes_iff.2 hT)
  · exact eq_alignment_of_takes ha ((takes_alignment hb c).mul hbc hab htakes)
  · exact eq_alignment_of_takes hb (htakes.inverse hab)

noncomputable def overturned : Pose ℝ := ⟨7, ⟨1.0, 2.0, 3.0⟩, ⟨0.0, 1.0, 0.0, 0.0⟩⟩

noncomputable def swung : Pose ℝ := ⟨9, ⟨0.0, 0.0, 1.0⟩, ⟨-0.8, 0.0, 0.0, -0.6⟩⟩

noncomputable def tipped : Pose ℝ := ⟨8, ⟨-1.0, 0.0, 5.0⟩, ⟨0.6, 0.0, 0.8, 0.0⟩⟩

theorem alignment_laws_swung :
    overturned.orientation.norm = 1 ∧ swung.orientation.norm = 1 ∧ tipped.orientation.norm = 1 ∧
      (overturned.alignment swung).transformPose overturned =
        ⟨7, ⟨0.0, 0.0, 1.0⟩, ⟨-0.8, 0.0, 0.0, -0.6⟩⟩ ∧
      swung.alignment tipped * overturned.alignment swung = overturned.alignment tipped ∧
      (overturned.alignment swung).inverse = swung.alignment overturned := by
  have hunit : overturned.orientation.norm = 1 ∧ swung.orientation.norm = 1 ∧
      tipped.orientation.norm = 1 := by
    simp only [Quaternion.norm_eq_one_iff, Quaternion.dot_def, overturned, swung, tipped]
    norm_num
  obtain ⟨hoverturned, hswung, htipped⟩ := hunit
  obtain ⟨_, hpose, _, hmul, hinverse⟩ :=
    alignment_laws overturned swung tipped hoverturned hswung htipped
  exact ⟨hoverturned, hswung, htipped, hpose, hmul, hinverse⟩

end Pose
end TrackingScore
