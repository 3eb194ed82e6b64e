import Mathlib.Analysis.InnerProductSpace.PiL2
import Mathlib.Geometry.Euclidean.Angle.Unoriented.Basic
import TrackingScore.Alignment
import TrackingScore.Proofs.Exact.AxisAngle
import TrackingScore.Proofs.Exact.RigidTransform

/-!
An alignment turns along the shortest arc. Unless the directions are degenerate, the transform turns
the source direction onto the target direction about their cross product, by the angle between them.
-/

namespace TrackingScore

open Real

namespace Vector3

noncomputable def toEuclidean (v : Vector3 ℝ) : EuclideanSpace ℝ (Fin 3) :=
  (EuclideanSpace.equiv (Fin 3) ℝ).symm ![v.x, v.y, v.z]

noncomputable def angle (a b : Vector3 ℝ) : ℝ :=
  InnerProductGeometry.angle a.toEuclidean b.toEuclidean

theorem inner_toEuclidean (a b : Vector3 ℝ) : inner ℝ a.toEuclidean b.toEuclidean = a.dot b := by
  simp [toEuclidean, PiLp.inner_apply, Fin.sum_univ_three, dot_def, mul_comm]

theorem norm_toEuclidean (v : Vector3 ℝ) : ‖v.toEuclidean‖ = v.norm := by
  rw [norm_eq_sqrt_real_inner, inner_toEuclidean, norm_def]

theorem angle_eq_arccos (a b : Vector3 ℝ) :
    a.angle b = arccos (a.dot b / (a.norm * b.norm)) := by
  rw [angle, InnerProductGeometry.angle, inner_toEuclidean, norm_toEuclidean, norm_toEuclidean]

theorem angle_mem_Icc (a b : Vector3 ℝ) : a.angle b ∈ Set.Icc 0 π :=
  ⟨InnerProductGeometry.angle_nonneg _ _, InnerProductGeometry.angle_le_pi _ _⟩

theorem cos_angle (a b : Vector3 ℝ) : cos (a.angle b) * (a.norm * b.norm) = a.dot b := by
  rw [← norm_toEuclidean, ← norm_toEuclidean, ← inner_toEuclidean]
  exact InnerProductGeometry.cos_angle_mul_norm_mul_norm _ _

theorem norm_cross (a b : Vector3 ℝ) :
    (a.cross b).norm = sin (a.angle b) * (a.norm * b.norm) := by
  have hsin : 0 ≤ sin (a.angle b) :=
    sin_nonneg_of_nonneg_of_le_pi (a.angle_mem_Icc b).1 (a.angle_mem_Icc b).2
  have hsquare : (a.cross b).dot (a.cross b) = (sin (a.angle b) * (a.norm * b.norm)) ^ 2 := by
    rw [dot_cross_cross, ← norm_mul_norm, ← norm_mul_norm, ← cos_angle]
    linear_combination (a.norm * b.norm) ^ 2 * (-sin_sq_add_cos_sq (a.angle b))
  rw [norm_def, hsquare, sqrt_sq (mul_nonneg hsin (mul_nonneg a.norm_nonneg b.norm_nonneg))]

end Vector3

namespace Correspondence

variable {c : Correspondence ℝ} {params : AlignmentParams ℝ}

theorem directionAngle_eq (c : Correspondence ℝ) :
    c.directionAngle = c.sourceDir.angle c.targetDir := by
  rw [directionAngle, Scalar.acos_clamp, Vector3.dot_normalize, Vector3.angle_eq_arccos]

/-- Directions that are too short, or too near to parallel or antiparallel. -/
def Degenerate (c : Correspondence ℝ) (params : AlignmentParams ℝ) : Prop :=
  (c.sourceDir.norm < params.minDirectionNorm ∨ c.targetDir.norm < params.minDirectionNorm) ∨
    c.sourceDir.angle c.targetDir < params.parallelTolerance ∨
    π - c.sourceDir.angle c.targetDir < params.parallelTolerance

noncomputable def axis (c : Correspondence ℝ) : Vector3 ℝ :=
  (c.sourceDir.cross c.targetDir).normalize

noncomputable def turn (c : Correspondence ℝ) : Quaternion ℝ :=
  .ofAxisAngle c.axis (c.sourceDir.angle c.targetDir)

theorem solve_eq (c : Correspondence ℝ) (params : AlignmentParams ℝ) :
    c.solve params =
      if c.sourceDir.norm < params.minDirectionNorm ∨
          c.targetDir.norm < params.minDirectionNorm then
        .error (.degenerateAlignment (.shortDirection c.sourceDir.norm c.targetDir.norm))
      else if c.sourceDir.angle c.targetDir < params.parallelTolerance then
        .error (.degenerateAlignment .parallel)
      else if π - c.sourceDir.angle c.targetDir < params.parallelTolerance then
        .error (.degenerateAlignment .antiparallel)
      else .ok ⟨c.targetOrigin - c.turn.rotate c.sourceOrigin, c.turn⟩ := by
  have hshort : (!(Scalar.atMost params.minDirectionNorm c.sourceDir.norm &&
      Scalar.atMost params.minDirectionNorm c.targetDir.norm)) =
        decide (c.sourceDir.norm < params.minDirectionNorm ∨
          c.targetDir.norm < params.minDirectionNorm) := by
    simp [Scalar.atMost, ← not_le]
  rw [solve, directionAngle_eq, hshort]
  simp only [Scalar.less, decide_eq_true_eq]
  rfl

theorem solve_of_degenerate (h : c.Degenerate params) :
    ∃ fault, c.solve params = .error (.degenerateAlignment fault) := by
  rw [solve_eq]
  rcases h with hshort | hline
  · exact ⟨_, if_pos hshort⟩
  · split_ifs with _ hparallel hantiparallel
    · exact ⟨_, rfl⟩
    · exact ⟨_, rfl⟩
    · exact ⟨_, rfl⟩
    · exact absurd hline (not_or.2 ⟨hparallel, hantiparallel⟩)

theorem solve_of_not_degenerate (h : ¬ c.Degenerate params) :
    c.solve params = .ok ⟨c.targetOrigin - c.turn.rotate c.sourceOrigin, c.turn⟩ := by
  obtain ⟨hshort, hline⟩ := not_or.1 h
  obtain ⟨hparallel, hantiparallel⟩ := not_or.1 hline
  rw [solve_eq, if_neg hshort, if_neg hparallel, if_neg hantiparallel]

section turning

/-- Two directions of which neither is a multiple of the other. -/
structure Spans (c : Correspondence ℝ) : Prop where
  sourceDir_ne : c.sourceDir.norm ≠ 0
  targetDir_ne : c.targetDir.norm ≠ 0
  sin_ne : sin (c.sourceDir.angle c.targetDir) ≠ 0

theorem spans_of_not_degenerate (hnorm : 0 < params.minDirectionNorm)
    (htolerance : 0 < params.parallelTolerance) (h : ¬ c.Degenerate params) : c.Spans := by
  simp only [Degenerate, not_or, not_lt] at h
  obtain ⟨⟨hsource, htarget⟩, hparallel, hantiparallel⟩ := h
  have hsin : 0 < sin (c.sourceDir.angle c.targetDir) :=
    sin_pos_of_pos_of_lt_pi (htolerance.trans_le hparallel) (by linarith)
  exact ⟨(hnorm.trans_le hsource).ne', (hnorm.trans_le htarget).ne', hsin.ne'⟩

variable (h : c.Spans)
include h

theorem Spans.norm_cross_ne : (c.sourceDir.cross c.targetDir).norm ≠ 0 := by
  rw [Vector3.norm_cross]
  exact mul_ne_zero h.sin_ne (mul_ne_zero h.sourceDir_ne h.targetDir_ne)

theorem Spans.dot_axis : c.axis.dot c.axis = 1 := Vector3.dot_normalize_self h.norm_cross_ne

theorem Spans.turn_rotate_cross :
    c.turn.rotate (c.sourceDir.cross c.targetDir) = c.sourceDir.cross c.targetDir := by
  have haxis : c.axis.scale (c.sourceDir.cross c.targetDir).norm = c.sourceDir.cross c.targetDir :=
    Vector3.normalize_scale_norm h.norm_cross_ne
  rw [← haxis, turn, Quaternion.rotate_scale, Quaternion.rotate_ofAxisAngle_axis]

/-- The axis has to be divided by the length of the cross product, which is the sine that the turn
brings in. -/
theorem Spans.turn_rotate_sourceDir :
    c.turn.rotate c.sourceDir = c.targetDir.scale (c.sourceDir.norm / c.targetDir.norm) := by
  have hdot : c.axis.dot c.sourceDir = 0 := by
    rw [axis, Vector3.normalize_eq_scale, Vector3.scale_dot, Vector3.cross_dot_left, zero_mul]
  rw [turn, Quaternion.rotate_ofAxisAngle_of_dot_eq_zero h.dot_axis hdot, axis,
    Vector3.normalize_eq_scale, Vector3.scale_cross, Vector3.cross_cross_left, Vector3.norm_cross,
    ← Vector3.cos_angle c.sourceDir c.targetDir, ← Vector3.norm_mul_norm]
  have hsource := h.sourceDir_ne
  have htarget := h.targetDir_ne
  have hsin := h.sin_ne
  ext <;> simp only [Vector3.add_def, Vector3.sub_def, Vector3.scale_def] <;> field_simp <;> ring

theorem Spans.turn_angle : c.turn.angle = c.sourceDir.angle c.targetDir :=
  Quaternion.angle_ofAxisAngle h.dot_axis (c.sourceDir.angle_mem_Icc c.targetDir)

end turning

/-- What a transform does that takes the one frame of reference into the other and turns no more
than it has to. -/
structure SolvedBy (c : Correspondence ℝ) (T : RigidTransform ℝ) : Prop where
  unit : T.rotation.norm = 1
  origin : T.transformPoint c.sourceOrigin = c.targetOrigin
  direction : (T.rotateVector c.sourceDir).scale c.sourceDir.norm⁻¹ =
    c.targetDir.scale c.targetDir.norm⁻¹
  axis : T.rotateVector (c.sourceDir.cross c.targetDir) = c.sourceDir.cross c.targetDir
  angle : T.angle = c.sourceDir.angle c.targetDir
  ray : ∀ k > 0, ∃ j > 0, j * c.targetDir.norm = k * c.sourceDir.norm ∧
    T.transformPoint (c.sourceOrigin + c.sourceDir.scale k) = c.targetOrigin + c.targetDir.scale j

theorem Spans.solvedBy (h : c.Spans) :
    c.SolvedBy ⟨c.targetOrigin - c.turn.rotate c.sourceOrigin, c.turn⟩ := by
  have horigin : (⟨c.targetOrigin - c.turn.rotate c.sourceOrigin, c.turn⟩ :
      RigidTransform ℝ).transformPoint c.sourceOrigin = c.targetOrigin := by
    rw [RigidTransform.transformPoint_def]
    ext <;> simp only [Vector3.add_def, Vector3.sub_def] <;> ring
  constructor
  case unit =>
    exact Quaternion.norm_eq_one_iff.2 (Quaternion.dot_ofAxisAngle h.dot_axis _)
  case origin => exact horigin
  case direction =>
    rw [RigidTransform.rotateVector_def, h.turn_rotate_sourceDir, Vector3.scale_scale,
      div_mul_eq_mul_div, mul_inv_cancel₀ h.sourceDir_ne, one_div]
  case axis => exact h.turn_rotate_cross
  case angle => exact h.turn_angle
  case ray =>
    intro k hk
    have hsource := c.sourceDir.norm_nonneg.lt_of_ne' h.sourceDir_ne
    have htarget := c.targetDir.norm_nonneg.lt_of_ne' h.targetDir_ne
    refine ⟨c.sourceDir.norm / c.targetDir.norm * k, mul_pos (div_pos hsource htarget) hk, ?_, ?_⟩
    · field_simp
    · rw [RigidTransform.transformPoint_add, horigin, Quaternion.rotate_scale,
        h.turn_rotate_sourceDir, Vector3.scale_scale]

/-- An alignment fails for degenerate directions only. Any other correspondence is solved, by the
turn about the cross product of the directions through the angle between them. -/
theorem solve_cases (c : Correspondence ℝ) (params : AlignmentParams ℝ)
    (hnorm : 0 < params.minDirectionNorm) (htolerance : 0 < params.parallelTolerance) :
    ((∃ fault, c.solve params = .error (.degenerateAlignment fault)) ↔ c.Degenerate params) ∧
      (¬ c.Degenerate params → ∃ T, c.solve params = .ok T ∧ c.SolvedBy T) := by
  refine ⟨⟨?_, solve_of_degenerate⟩, ?_⟩
  · rintro ⟨fault, herror⟩
    by_contra hne
    rw [solve_of_not_degenerate hne] at herror
    cases herror
  · intro hne
    exact ⟨_, solve_of_not_degenerate hne,
      (spans_of_not_degenerate hnorm htolerance hne).solvedBy⟩

noncomputable def crossed : Correspondence ℝ :=
  ⟨⟨1.0, 2.0, 3.0⟩, ⟨0.0, -1.0, 0.0⟩, ⟨2.0, 0.0, 0.0⟩, ⟨0.0, 3.0, 4.0⟩⟩

theorem crossed_angle : crossed.sourceDir.angle crossed.targetDir = π / 2 := by
  have hdot : crossed.sourceDir.dot crossed.targetDir = 0 := by
    rw [Vector3.dot_def, crossed]
    norm_num
  rw [Vector3.angle_eq_arccos, hdot, zero_div, arccos_zero]

theorem solve_cases_crossed :
    (0 : ℝ) < 1 ∧ ∃ T, crossed.solve ⟨1, 1⟩ = .ok T ∧
      T.transformPoint crossed.sourceOrigin = crossed.targetOrigin ∧
      T.transformPoint ⟨11, 2, 3⟩ = ⟨0, 5, 8⟩ ∧ T.angle = π / 2 := by
  have hsource : crossed.sourceDir.norm = 2 := by
    rw [Vector3.norm_def, Vector3.dot_def, crossed, sqrt_eq_iff_mul_self_eq_of_pos two_pos]
    norm_num
  have htarget : crossed.targetDir.norm = 5 := by
    rw [Vector3.norm_def, Vector3.dot_def, crossed, sqrt_eq_iff_mul_self_eq_of_pos (by norm_num)]
    norm_num
  have hne : ¬ crossed.Degenerate ⟨1, 1⟩ := by
    rw [Degenerate, hsource, htarget, crossed_angle]
    norm_num
    constructor <;> linarith [two_le_pi]
  obtain ⟨T, hok, hsolved⟩ := (solve_cases crossed ⟨1, 1⟩ one_pos one_pos).2 hne
  obtain ⟨j, _, hj, hray⟩ := hsolved.ray 5 (by norm_num)
  rw [hsource, htarget] at hj
  obtain rfl : j = 2 := by linarith
  have hpoint : crossed.sourceOrigin + crossed.sourceDir.scale 5 = ⟨11, 2, 3⟩ := by
    ext <;> norm_num [Vector3.add_def, Vector3.scale_def, crossed]
  have himage : crossed.targetOrigin + crossed.targetDir.scale 2 = ⟨0, 5, 8⟩ := by
    ext <;> norm_num [Vector3.add_def, Vector3.scale_def, crossed]
  rw [hpoint, himage] at hray
  exact ⟨one_pos, T, hok, hsolved.origin, hray, hsolved.angle.trans crossed_angle⟩

end Correspondence
end TrackingScore
