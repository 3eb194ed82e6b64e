import TrackingScore.Proofs.RotationAxis
import TrackingScore.Proofs.TransformGroup

/-!
An alignment goes either way and knows no scale. From the target to the source it fails for the same
directions and is the inverse otherwise, and of the directions only where they point to matters once
neither of them is too short.
-/

namespace TrackingScore

open Real

namespace Vector3

theorem cross_swap (a b : Vector3 ℝ) : b.cross a = -a.cross b := by
  ext <;> simp only [cross_def, neg_def] <;> ring

theorem norm_neg (v : Vector3 ℝ) : (-v).norm = v.norm := by
  simp only [norm_def, dot_def, neg_def, neg_mul_neg]

theorem normalize_neg (v : Vector3 ℝ) : (-v).normalize = -v.normalize := by
  simp only [normalize_def, norm_neg]
  simp only [neg_def, neg_div]

theorem cross_scale_scale (a b : Vector3 ℝ) (j k : ℝ) :
    (a.scale j).cross (b.scale k) = (a.cross b).scale (j * k) := by
  ext <;> simp only [cross_def, scale_def] <;> ring

theorem toEuclidean_scale (v : Vector3 ℝ) (s : ℝ) : (v.scale s).toEuclidean = s • v.toEuclidean := by
  ext i
  fin_cases i <;> simp [toEuclidean, scale_def, mul_comm]

theorem angle_comm (a b : Vector3 ℝ) : a.angle b = b.angle a := InnerProductGeometry.angle_comm _ _

section positive

variable {s : ℝ} (hs : 0 < s)
include hs

theorem norm_scale (v : Vector3 ℝ) : (v.scale s).norm = s * v.norm := by
  rw [← norm_toEuclidean, toEuclidean_scale, norm_smul_of_nonneg hs.le, norm_toEuclidean]

theorem normalize_scale (v : Vector3 ℝ) : (v.scale s).normalize = v.normalize := by
  rw [normalize_eq_scale, norm_scale hs, scale_scale, mul_inv_rev, mul_comm v.norm⁻¹,
    mul_inv_cancel_left₀ hs.ne', normalize_eq_scale]

theorem angle_scale {t : ℝ} (ht : 0 < t) (a b : Vector3 ℝ) :
    (a.scale s).angle (b.scale t) = a.angle b := by
  rw [angle, toEuclidean_scale, toEuclidean_scale,
    InnerProductGeometry.angle_smul_left_of_pos _ _ hs,
    InnerProductGeometry.angle_smul_right_of_pos _ _ ht, angle]

end positive
end Vector3

theorem Quaternion.ofAxisAngle_neg (axis : Vector3 ℝ) (θ : ℝ) :
    ofAxisAngle (-axis) θ = (ofAxisAngle axis θ).conjugate := by
  simp only [ofAxisAngle_def, conjugate_def, Vector3.neg_def, neg_mul]

namespace Correspondence

def swap {α : Type} (c : Correspondence α) : Correspondence α :=
  ⟨c.targetOrigin, c.sourceOrigin, c.targetDir, c.sourceDir⟩

def stretch {α : Type} [Scalar α] (c : Correspondence α) (j k : α) : Correspondence α :=
  { c with sourceDir := c.sourceDir.scale j, targetDir := c.targetDir.scale k }

variable {c : Correspondence ℝ} {params : AlignmentParams ℝ}

theorem degenerate_swap : c.swap.Degenerate params ↔ c.Degenerate params := by
  rw [Degenerate, Degenerate, swap, Vector3.angle_comm, or_comm (a := c.targetDir.norm < _)]

theorem turn_swap (c : Correspondence ℝ) : c.swap.turn = c.turn.conjugate := by
  rw [turn, axis, swap, Vector3.cross_swap, Vector3.normalize_neg, Vector3.angle_comm,
    Quaternion.ofAxisAngle_neg]
  rfl

/-- What takes the target origin back is the inverse; its translation is the old one turned back. -/
theorem Spans.inverse_solution (h : c.Spans) :
    (⟨c.targetOrigin - c.turn.rotate c.sourceOrigin, c.turn⟩ : RigidTransform ℝ).inverse =
      ⟨c.swap.targetOrigin - c.swap.turn.rotate c.swap.sourceOrigin, c.swap.turn⟩ := by
  have hunit : c.turn.conjugate.dot c.turn.conjugate = 1 :=
    c.turn.dot_conjugate.trans (Quaternion.dot_ofAxisAngle h.dot_axis _)
  have hback : c.turn.conjugate.rotate (c.turn.rotate c.sourceOrigin) = c.sourceOrigin := by
    have hrotate := Quaternion.rotate_rotate_conjugate hunit c.sourceOrigin
    rwa [Quaternion.conjugate_conjugate] at hrotate
  rw [RigidTransform.inverse_def, turn_swap, Quaternion.rotate_neg, Quaternion.rotate_sub, hback]
  congr 1
  ext <;> simp only [swap, Vector3.sub_def, Vector3.neg_def] <;> ring

theorem solve_swap (hspans : c.Spans) (h : ¬ c.Degenerate params) :
    ∃ T, c.solve params = .ok T ∧ c.swap.solve params = .ok T.inverse := by
  refine ⟨_, solve_of_not_degenerate h, ?_⟩
  rw [solve_of_not_degenerate (mt degenerate_swap.1 h), hspans.inverse_solution]

section stretch

variable {j k : ℝ} (hj : 0 < j) (hk : 0 < k)
include hj hk

theorem angle_stretch (c : Correspondence ℝ) :
    (c.stretch j k).sourceDir.angle (c.stretch j k).targetDir = c.sourceDir.angle c.targetDir :=
  Vector3.angle_scale hj hk c.sourceDir c.targetDir

theorem turn_stretch (c : Correspondence ℝ) : (c.stretch j k).turn = c.turn := by
  rw [turn, angle_stretch hj hk, axis, stretch, Vector3.cross_scale_scale,
    Vector3.normalize_scale (mul_pos hj hk)]
  rfl

theorem solve_stretch (hc : ¬ (c.sourceDir.norm < params.minDirectionNorm ∨
      c.targetDir.norm < params.minDirectionNorm))
    (hstretch : ¬ ((c.stretch j k).sourceDir.norm < params.minDirectionNorm ∨
      (c.stretch j k).targetDir.norm < params.minDirectionNorm)) :
    (c.stretch j k).solve params = c.solve params := by
  rw [solve_eq, solve_eq, if_neg hc, if_neg hstretch, angle_stretch hj hk, turn_stretch hj hk]
  rfl

end stretch

/-- With the frames of reference exchanged an alignment fails if it did before and is the inverse
otherwise. Factors above zero on the directions change nothing, neither a transform nor an error, as
long as they make no direction too short. -/
theorem solve_reversible_scaleFree (c : Correspondence ℝ) (params : AlignmentParams ℝ)
    (hnorm : 0 < params.minDirectionNorm) (htolerance : 0 < params.parallelTolerance) :
    ((Fails (c.swap.solve params) ↔ Fails (c.solve params)) ∧
        (¬ Fails (c.solve params) →
          ∃ T, c.solve params = .ok T ∧ c.swap.solve params = .ok T.inverse)) ∧
      ∀ j > 0, ∀ k > 0,
        params.minDirectionNorm ≤ c.sourceDir.norm → params.minDirectionNorm ≤ c.targetDir.norm →
        params.minDirectionNorm ≤ (c.stretch j k).sourceDir.norm →
        params.minDirectionNorm ≤ (c.stretch j k).targetDir.norm →
        (c.stretch j k).solve params = c.solve params := by
  refine ⟨⟨?_, ?_⟩, ?_⟩
  · rw [solve_fails_iff, solve_fails_iff, degenerate_swap]
  · intro hok
    have hpass := mt solve_fails_iff.2 hok
    exact solve_swap (spans_of_not_degenerate hnorm htolerance hpass) hpass
  · intro j hj k hk hsource htarget hsource' htarget'
    exact solve_stretch hj hk (not_or.2 ⟨hsource.not_gt, htarget.not_gt⟩)
      (not_or.2 ⟨hsource'.not_gt, htarget'.not_gt⟩)

theorem norm_sourceDir_crossed : crossed.sourceDir.norm = 2 := by
  rw [Vector3.norm_def, Vector3.dot_def, crossed, sqrt_eq_iff_mul_self_eq_of_pos two_pos]
  norm_num

theorem norm_targetDir_crossed : crossed.targetDir.norm = 5 := by
  rw [Vector3.norm_def, Vector3.dot_def, crossed, sqrt_eq_iff_mul_self_eq_of_pos (by norm_num)]
  norm_num

theorem solve_reversible_scaleFree_crossed :
    (0 : ℝ) < 1 ∧ ∃ T, crossed.solve ⟨1, 1⟩ = .ok T ∧ crossed.swap.solve ⟨1, 1⟩ = .ok T.inverse ∧
      (crossed.stretch 3 (1 / 5)).solve ⟨1, 1⟩ = .ok T := by
  have hpass : ¬ crossed.Degenerate ⟨1, 1⟩ := by
    rw [Degenerate, norm_sourceDir_crossed, norm_targetDir_crossed, crossed_angle]
    norm_num
    constructor <;> linarith [two_le_pi]
  have hsource : (crossed.stretch 3 (1 / 5)).sourceDir.norm = 6 := by
    rw [stretch, Vector3.norm_scale three_pos, norm_sourceDir_crossed]
    norm_num
  have htarget : (crossed.stretch 3 (1 / 5)).targetDir.norm = 1 := by
    rw [stretch, Vector3.norm_scale (by norm_num), norm_targetDir_crossed]
    norm_num
  obtain ⟨⟨_, hswap⟩, hstretch⟩ := solve_reversible_scaleFree crossed ⟨1, 1⟩ one_pos one_pos
  obtain ⟨T, hok, hback⟩ := hswap (mt solve_fails_iff.1 hpass)
  refine ⟨one_pos, T, hok, hback, (hstretch 3 three_pos (1 / 5) (by norm_num) ?_ ?_ ?_ ?_).trans hok⟩
  · rw [norm_sourceDir_crossed]
    norm_num
  · rw [norm_targetDir_crossed]
    norm_num
  · rw [hsource]
    norm_num
  · rw [htarget]

end Correspondence
end TrackingScore
