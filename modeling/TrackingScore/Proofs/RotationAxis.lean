import TrackingScore.Proofs.ShortestArc
import TrackingScore.Session

/-!
When the rotation of an alignment is one. Directions with a rotation axis are turned by a unit
quaternion, whatever the tolerances. Directions without one are stopped by the tolerances alone: a
zero length by a least length above zero, and directions on one line by an angle above zero.
-/

namespace TrackingScore

open Real

theorem Vector3.angle_of_sin_eq_zero {a b : Vector3 ℝ} (h : sin (a.angle b) = 0) :
    a.angle b = 0 ∨ a.angle b = π := by
  obtain ⟨hnonneg, hle⟩ := a.angle_mem_Icc b
  rcases hnonneg.eq_or_lt with hzero | hpos
  · exact .inl hzero.symm
  · rcases hle.eq_or_lt with hpi | hlt
    · exact .inr hpi
    · exact absurd h (sin_pos_of_pos_of_lt_pi hpos hlt).ne'

namespace Correspondence

variable {c : Correspondence ℝ} {params : AlignmentParams ℝ}

theorem spans_iff : c.Spans ↔ (c.sourceDir.cross c.targetDir).norm ≠ 0 := by
  constructor
  · intro h
    exact h.norm_cross_ne
  · intro h
    rw [Vector3.norm_cross, mul_ne_zero_iff, mul_ne_zero_iff] at h
    exact ⟨h.2.1, h.2.2, h.1⟩

/-- The directions are told to be degenerate. -/
def Fails (result : Except (EvalError ℝ) (RigidTransform ℝ)) : Prop :=
  ∃ fault, result = .error (.degenerateAlignment fault)

theorem solve_fails_iff : Fails (c.solve params) ↔ c.Degenerate params := by
  constructor
  · rintro ⟨fault, herror⟩
    by_contra hne
    rw [solve_of_not_degenerate hne] at herror
    cases herror
  · exact solve_of_degenerate

theorem norm_rotation_of_solve (hspans : c.Spans) {T : RigidTransform ℝ}
    (h : c.solve params = .ok T) : T.rotation.norm = 1 := by
  by_cases hdegenerate : c.Degenerate params
  · obtain ⟨fault, herror⟩ := solve_of_degenerate hdegenerate
    rw [herror] at h
    cases h
  · rw [solve_of_not_degenerate hdegenerate] at h
    cases h
    exact hspans.solvedBy.unit

theorem degenerate_of_norm_eq_zero (h : c.sourceDir.norm = 0 ∨ c.targetDir.norm = 0)
    (hnorm : 0 < params.minDirectionNorm) : c.Degenerate params := by
  rcases h with hsource | htarget
  · exact .inl (.inl (hsource ▸ hnorm))
  · exact .inl (.inr (htarget ▸ hnorm))

/-- Directions on one line are no farther than an angle of zero from parallel or antiparallel, so
they count as such by any tolerance above zero and by no other. -/
theorem degenerate_iff_of_sin_eq_zero (h : sin (c.sourceDir.angle c.targetDir) = 0) :
    c.Degenerate params ↔
      (c.sourceDir.norm < params.minDirectionNorm ∨ c.targetDir.norm < params.minDirectionNorm) ∨
        0 < params.parallelTolerance := by
  refine or_congr_right ?_
  have hpi := pi_pos
  rcases Vector3.angle_of_sin_eq_zero h with hzero | hpi'
  · rw [hzero, sub_zero, or_iff_left_of_imp hpi.trans]
  · rw [hpi', sub_self, or_iff_right_of_imp hpi.trans]

/-- What the tolerances have to do with an alignment: nothing if the directions have a rotation
axis, and all if they have none. -/
structure TurnsOrFails (c : Correspondence ℝ) (params : AlignmentParams ℝ)
    (result : Except (EvalError ℝ) (RigidTransform ℝ)) : Prop where
  unit : (c.sourceDir.cross c.targetDir).norm ≠ 0 → ∀ T, result = .ok T → T.rotation.norm = 1
  zeroLength : c.sourceDir.norm = 0 ∨ c.targetDir.norm = 0 → 0 < params.minDirectionNorm →
    Fails result
  oneLine : c.sourceDir.norm ≠ 0 → c.targetDir.norm ≠ 0 →
    (c.sourceDir.cross c.targetDir).norm = 0 →
      (Fails result ↔
        (c.sourceDir.norm < params.minDirectionNorm ∨
          c.targetDir.norm < params.minDirectionNorm) ∨ 0 < params.parallelTolerance)
  positive : 0 < params.minDirectionNorm → 0 < params.parallelTolerance →
    (∀ T, result = .ok T → T.rotation.norm = 1) ∧
      ((c.sourceDir.cross c.targetDir).norm = 0 → Fails result)

theorem turnsOrFails_solve (c : Correspondence ℝ) (params : AlignmentParams ℝ) :
    c.TurnsOrFails params (c.solve params) := by
  constructor
  case unit => exact fun hcross T => norm_rotation_of_solve (spans_iff.2 hcross)
  case zeroLength =>
    intro hzero hnorm
    exact solve_fails_iff.2 (degenerate_of_norm_eq_zero hzero hnorm)
  case oneLine =>
    intro hsource htarget hcross
    rw [Vector3.norm_cross] at hcross
    have hsin := (mul_eq_zero.1 hcross).resolve_right (mul_ne_zero hsource htarget)
    rw [solve_fails_iff, degenerate_iff_of_sin_eq_zero hsin]
  case positive =>
    intro hnorm htolerance
    have hspans : ¬ Fails (c.solve params) → c.Spans := fun h =>
      spans_of_not_degenerate hnorm htolerance fun hdegenerate => h (solve_fails_iff.2 hdegenerate)
    constructor
    · intro T hok
      refine norm_rotation_of_solve (hspans ?_) hok
      rintro ⟨fault, herror⟩
      rw [hok] at herror
      cases herror
    · intro hcross
      by_contra hfails
      exact spans_iff.1 (hspans hfails) hcross

end Correspondence

theorem Session.map_toReference_ofCorrespondence {H : Type} [ImageHandle H] (track : Track ℝ)
    (frames : FrameStream H) (c : Correspondence ℝ) (params : EvalParams ℝ) :
    (Session.ofCorrespondence track frames c params).map (·.toReference) =
      c.solve params.alignment := by
  unfold ofCorrespondence
  cases c.solve params.alignment <;> rfl

namespace Correspondence

/-- The rotation of a solved alignment is a unit quaternion whenever the directions determine an
axis, be it solved on its own or for a session. Directions without an axis are rejected if the
tolerances are above zero; directions on one line are rejected in no other case, unless one is too
short. -/
theorem solve_turnsOrFails (c : Correspondence ℝ) (params : EvalParams ℝ) :
    c.TurnsOrFails params.alignment (c.solve params.alignment) ∧
      ∀ (H : Type) [ImageHandle H] (track : Track ℝ) (frames : FrameStream H),
        c.TurnsOrFails params.alignment
          ((Session.ofCorrespondence track frames c params).map (·.toReference)) := by
  refine ⟨turnsOrFails_solve c params.alignment, ?_⟩
  intro H _ track frames
  rw [Session.map_toReference_ofCorrespondence]
  exact turnsOrFails_solve c params.alignment

theorem solve_turnsOrFails_crossed :
    (crossed.sourceDir.cross crossed.targetDir).norm ≠ 0 ∧
      ∃ T, crossed.solve ⟨-1, -1⟩ = .ok T ∧ T.rotation.norm = 1 := by
  have hcross : (crossed.sourceDir.cross crossed.targetDir).norm ≠ 0 := by
    rw [Vector3.norm_def, Real.sqrt_ne_zero', Vector3.dot_def, Vector3.cross_def, crossed]
    norm_num
  have hpass : ¬ crossed.Degenerate ⟨-1, -1⟩ := by
    have hpi := pi_pos
    have hsource := crossed.sourceDir.norm_nonneg
    have htarget := crossed.targetDir.norm_nonneg
    simp only [Degenerate, crossed_angle, not_or, not_lt]
    refine ⟨⟨?_, ?_⟩, ?_, ?_⟩ <;> linarith
  have hok := solve_of_not_degenerate hpass
  let params : EvalParams ℝ := { EvalParams.default "" with alignment := ⟨-1, -1⟩ }
  exact ⟨hcross, _, hok, (solve_turnsOrFails crossed params).1.unit hcross _ hok⟩

noncomputable def opposed : Correspondence ℝ := ⟨.zero, .zero, ⟨1, 0, 0⟩, ⟨-1, 0, 0⟩⟩

theorem opposed_angle : opposed.sourceDir.angle opposed.targetDir = π := by
  have hsource : opposed.sourceDir.norm = 1 := by simp [Vector3.norm_def, Vector3.dot_def, opposed]
  have htarget : opposed.targetDir.norm = 1 := by simp [Vector3.norm_def, Vector3.dot_def, opposed]
  have hdot : opposed.sourceDir.dot opposed.targetDir = -1 := by simp [Vector3.dot_def, opposed]
  rw [Vector3.angle_eq_arccos, hsource, htarget, hdot, mul_one, div_one, arccos_neg_one]

/-- No angle is below a tolerance of zero, so opposite directions pass. They have no axis, and what
is meant to turn the one onto the other has norm zero. -/
theorem solve_opposed_not_unit :
    (opposed.sourceDir.cross opposed.targetDir).norm = 0 ∧
      ∃ T, opposed.solve ⟨0, 0⟩ = .ok T ∧ T.rotation.norm = 0 := by
  have hcross : opposed.sourceDir.cross opposed.targetDir = ⟨0, 0, 0⟩ := by
    simp [Vector3.cross_def, opposed]
  have hpass : ¬ opposed.Degenerate ⟨0, 0⟩ := by
    simp [Degenerate, opposed_angle, Vector3.norm_nonneg, pi_nonneg]
  have haxis : opposed.axis = ⟨0, 0, 0⟩ := by
    simp only [axis, hcross, Vector3.normalize_def, zero_div]
  have hturn : opposed.turn = ⟨0, 0, 0, 0⟩ := by
    simp only [turn, opposed_angle, haxis, Quaternion.ofAxisAngle_def, cos_pi_div_two, zero_mul]
  refine ⟨by simp [hcross, Vector3.norm_def, Vector3.dot_def], _, solve_of_not_degenerate hpass, ?_⟩
  simp [hturn, Quaternion.norm_def, Quaternion.dot_def]

end Correspondence
end TrackingScore
