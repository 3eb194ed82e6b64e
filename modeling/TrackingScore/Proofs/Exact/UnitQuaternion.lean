import TrackingScore.Proofs.Exact.Quaternion

/-!
The group of unit quaternions. To rotate a vector is to conjugate it by the quaternion, so a product
rotates as its factors do one after the other, and the conjugate quaternion turns back.
-/

namespace TrackingScore.Quaternion

theorem identity_def : (identity : Quaternion ℝ) = ⟨1, 0, 0, 0⟩ := by
  simp only [identity]
  norm_num

protected theorem mul_assoc (a b c : Quaternion ℝ) : a * b * c = a * (b * c) := by
  ext <;> simp only [mul_def] <;> ring

theorem identity_mul (q : Quaternion ℝ) : identity * q = q := by
  ext <;> simp only [identity_def, mul_def] <;> ring

theorem mul_identity (q : Quaternion ℝ) : q * identity = q := by
  ext <;> simp only [identity_def, mul_def] <;> ring

theorem conjugate_mul (a b : Quaternion ℝ) : (a * b).conjugate = b.conjugate * a.conjugate := by
  ext <;> simp only [mul_def, conjugate_def] <;> ring

theorem conjugate_conjugate (q : Quaternion ℝ) : q.conjugate.conjugate = q := by
  ext <;> simp only [conjugate_def, neg_neg]

theorem dot_conjugate (q : Quaternion ℝ) : q.conjugate.dot q.conjugate = q.dot q := by
  simp only [dot_def, conjugate_def]
  ring

theorem dot_self_mul {a b : Quaternion ℝ} (ha : a.dot a = 1) (hb : b.dot b = 1) :
    (a * b).dot (a * b) = 1 := by
  rw [dot_mul_mul, ha, hb, one_mul]

theorem dot_identity : (identity : Quaternion ℝ).dot identity = 1 := by
  rw [identity_def, dot_def]
  ring

variable {q : Quaternion ℝ}

theorem conjugate_mul_self (h : q.dot q = 1) : q.conjugate * q = identity := by
  rw [dot_def] at h
  ext <;> simp only [identity_def, mul_def, conjugate_def]
  · linear_combination h
  all_goals ring

theorem mul_conjugate_self (h : q.dot q = 1) : q * q.conjugate = identity := by
  have hconjugate := conjugate_mul_self (q.dot_conjugate.trans h)
  rwa [conjugate_conjugate] at hconjugate

noncomputable def ofVector (v : Vector3 ℝ) : Quaternion ℝ := ⟨0, v.x, v.y, v.z⟩

theorem ofVector_injective : Function.Injective ofVector := by
  intro a b h
  have himaginary := congrArg imaginary h
  exact himaginary

/-- The double cross product gives the conjugate only of a unit quaternion. -/
theorem ofVector_rotate (h : q.dot q = 1) (v : Vector3 ℝ) :
    ofVector (q.rotate v) = q * ofVector v * q.conjugate := by
  rw [dot_def] at h
  ext <;> simp only [ofVector, rotate_def, imaginary_def, mul_def, conjugate_def, Vector3.add_def,
    Vector3.scale_def, Vector3.cross_def]
  · ring
  · linear_combination -v.x * h
  · linear_combination -v.y * h
  · linear_combination -v.z * h

theorem rotate_identity (v : Vector3 ℝ) : identity.rotate v = v := by
  ext <;> simp only [identity_def, rotate_def, imaginary_def, Vector3.add_def, Vector3.scale_def,
    Vector3.cross_def] <;> ring

theorem rotate_mul {a b : Quaternion ℝ} (ha : a.dot a = 1) (hb : b.dot b = 1) (v : Vector3 ℝ) :
    (a * b).rotate v = a.rotate (b.rotate v) := by
  apply ofVector_injective
  calc
    ofVector ((a * b).rotate v) = a * b * ofVector v * (b.conjugate * a.conjugate) := by
      rw [ofVector_rotate (dot_self_mul ha hb), conjugate_mul]
    _ = a * (b * ofVector v * b.conjugate) * a.conjugate := by simp only [Quaternion.mul_assoc]
    _ = ofVector (a.rotate (b.rotate v)) := by rw [ofVector_rotate ha, ofVector_rotate hb]

theorem rotate_rotate_conjugate (h : q.dot q = 1) (v : Vector3 ℝ) :
    q.rotate (q.conjugate.rotate v) = v := by
  rw [← rotate_mul h (q.dot_conjugate.trans h), mul_conjugate_self h, rotate_identity]

end TrackingScore.Quaternion
