import TrackingScore.Proofs.Exact.Quaternion
import TrackingScore.Proofs.TrackQuery

/-!
Orientations between the stored ones. The chord between two unit quaternions passes through the
origin only if they are opposite, and then halfway. The origin cannot be brought to norm one, so these
are the times of its range at which a track does not answer with a unit quaternion.
-/

namespace TrackingScore

namespace Quaternion

variable {a b q : Quaternion ℝ} {s : ℝ}

theorem neg_def (q : Quaternion ℝ) : -q = ⟨-q.w, -q.x, -q.y, -q.z⟩ := rfl

theorem dot_self_nonneg (q : Quaternion ℝ) : 0 ≤ q.dot q := by
  rw [dot_def]
  linarith [mul_self_nonneg q.w, mul_self_nonneg q.x, mul_self_nonneg q.y, mul_self_nonneg q.z]

theorem norm_eq_zero_iff : q.norm = 0 ↔ q = ⟨0, 0, 0, 0⟩ := by
  rw [norm_def, Real.sqrt_eq_zero q.dot_self_nonneg, dot_def]
  constructor
  · intro h
    ext <;> refine mul_self_eq_zero.1 (le_antisymm ?_ (mul_self_nonneg _)) <;>
      linarith [mul_self_nonneg q.w, mul_self_nonneg q.x, mul_self_nonneg q.y, mul_self_nonneg q.z]
  · rintro rfl
    ring

theorem dot_divide_self (q : Quaternion ℝ) (s : ℝ) :
    (q.divide s).dot (q.divide s) = q.dot q / (s * s) := by
  simp only [divide_def, dot_def]
  ring

theorem norm_mul_norm (q : Quaternion ℝ) : q.norm * q.norm = q.dot q :=
  Real.mul_self_sqrt q.dot_self_nonneg

theorem norm_normalize_eq_one_iff : q.normalize.norm = 1 ↔ q.norm ≠ 0 := by
  rw [norm_eq_one_iff, normalize_def, dot_divide_self, norm_mul_norm, ← norm_mul_norm]
  by_cases h : q.norm = 0
  · simp [h]
  · simp [h, div_self]

theorem norm_chord_eq_zero_iff (ha : a.dot a = 1) (hb : b.dot b = 1) :
    (a + (b - a).scale s).norm = 0 ↔ b = -a ∧ s = 1 / 2 := by
  rw [norm_eq_zero_iff]
  constructor
  · intro h
    simp only [add_def, sub_def, scale_def, mk.injEq] at h
    obtain ⟨hw, hx, hy, hz⟩ := h
    have hlength : (1 - s) * (1 - s) * a.dot a = s * s * b.dot b := by
      simp only [dot_def]
      linear_combination ((1 - s) * a.w - s * b.w) * hw + ((1 - s) * a.x - s * b.x) * hx +
        ((1 - s) * a.y - s * b.y) * hy + ((1 - s) * a.z - s * b.z) * hz
    rw [ha, hb] at hlength
    have hs : s = 1 / 2 := by linarith
    subst hs
    refine ⟨?_, rfl⟩
    ext <;> simp only [neg_def] <;> linarith
  · rintro ⟨rfl, rfl⟩
    ext <;> simp only [add_def, sub_def, scale_def, neg_def] <;> ring

end Quaternion

namespace Track

open Scalar

structure Halfway {α : Type} [Scalar α] (lower upper : Pose α) (t : Int64) : Prop where
  opposite : upper.orientation = -lower.orientation
  time_eq : t.toInt - lower.timestamp.toInt = upper.timestamp.toInt - t.toInt

def BetweenOpposites {α : Type} [Scalar α] (track : Track α) (t : Int64) : Prop :=
  ∃ i, ∃ (_ : i < track.poses.toList.length) (_ : i + 1 < track.poses.toList.length),
    Halfway track.poses.toList[i] track.poses.toList[i + 1] t

theorem fraction_eq_half_iff {lower upper : Pose ℝ} {t : Int64} (hlower : lower.timestamp < t)
    (hupper : t < upper.timestamp) (hspan : lower.SpanFits upper) :
    fraction lower upper t = (1 / 2 : ℝ) ↔
      t.toInt - lower.timestamp.toInt = upper.timestamp.toInt - t.toInt := by
  have hpositive : (0 : ℤ) < upper.timestamp.toInt - lower.timestamp.toInt := by
    rw [Int64.lt_iff_toInt_lt] at hlower hupper
    omega
  rw [fraction_of_spanFits hlower hupper hspan]
  change ((t.toInt - lower.timestamp.toInt : ℤ) : ℝ) /
    ((upper.timestamp.toInt - lower.timestamp.toInt : ℤ) : ℝ) = 1 / 2 ↔ _
  rw [div_eq_div_iff (by exact_mod_cast hpositive.ne') two_ne_zero]
  norm_cast
  omega

variable {track : Track ℝ} {t : Int64} {i : Nat}

section chord

variable (hunit : ∀ pose ∈ track.poses.toList, pose.orientation.norm = 1)
  (hi : i + 1 < track.poses.toList.length)
include hunit

/-- Whatever the fraction, the chord between neighbours that are not opposite misses the origin. -/
theorem chord_eq_zero_iff {share : ℝ} :
    (track.poses.toList[i].orientation +
        (track.poses.toList[i + 1].orientation - track.poses.toList[i].orientation).scale
          share).norm = 0 ↔
      track.poses.toList[i + 1].orientation = -track.poses.toList[i].orientation ∧
        share = 1 / 2 :=
  Quaternion.norm_chord_eq_zero_iff
    (Quaternion.norm_eq_one_iff.1 (hunit _ (List.getElem_mem (Nat.lt_of_succ_lt hi))))
    (Quaternion.norm_eq_one_iff.1 (hunit _ (List.getElem_mem hi)))

theorem chord_eq_zero_iff_halfway (hfits : track.SpansFit)
    (hlower : track.poses.toList[i].timestamp < t)
    (hupper : t < track.poses.toList[i + 1].timestamp) :
    (track.poses.toList[i].orientation +
        (track.poses.toList[i + 1].orientation - track.poses.toList[i].orientation).scale
          (fraction track.poses.toList[i] track.poses.toList[i + 1] t)).norm = 0 ↔
      Halfway track.poses.toList[i] track.poses.toList[i + 1] t := by
  rw [chord_eq_zero_iff hunit hi, fraction_eq_half_iff hlower hupper (hfits.getElem hi)]
  exact ⟨fun h => ⟨h.1, h.2⟩, fun h => ⟨h.opposite, h.time_eq⟩⟩

end chord

theorem Halfway.between {lower upper : Pose ℝ} (h : Halfway lower upper t)
    (htimes : lower.timestamp < upper.timestamp) : lower.timestamp < t ∧ t < upper.timestamp := by
  have htime := h.time_eq
  rw [Int64.lt_iff_toInt_lt] at htimes
  rw [Int64.lt_iff_toInt_lt, Int64.lt_iff_toInt_lt]
  omega

theorem betweenOpposites_iff (hi : i + 1 < track.poses.toList.length)
    (hlower : track.poses.toList[i].timestamp < t)
    (hupper : t < track.poses.toList[i + 1].timestamp) :
    track.BetweenOpposites t ↔ Halfway track.poses.toList[i] track.poses.toList[i + 1] t := by
  constructor
  · rintro ⟨j, _, hj, h⟩
    obtain ⟨hjlt, htj⟩ :=
      h.between ((track.poses.time_lt_time_iff (Nat.lt_of_succ_lt hj) hj).2 (Nat.lt_succ_self j))
    obtain rfl := between_unique hi hj hlower hupper hjlt htj
    exact h
  · exact fun h => ⟨i, Nat.lt_of_succ_lt hi, hi, h⟩

theorem not_betweenOpposites_of_stored (hi : i < track.poses.toList.length)
    (ht : track.poses.toList[i].timestamp = t) : ¬ track.BetweenOpposites t := by
  rintro ⟨j, _, hj, h⟩
  obtain ⟨hjlt, htj⟩ :=
    h.between ((track.poses.time_lt_time_iff (Nat.lt_of_succ_lt hj) hj).2 (Nat.lt_succ_self j))
  subst ht
  have hji := (track.poses.time_lt_time_iff (Nat.lt_of_succ_lt hj) hi).1 hjlt
  have hij := (track.poses.time_lt_time_iff hi hj).1 htj
  omega

/-- A track of unit orientations answers every time of its range, with a unit quaternion unless the
time is halfway between neighbours with opposite orientations. Only there the interpolated quaternion
vanishes before it is brought to norm one. -/
theorem orientationAt_unit_iff (track : Track ℝ) (hfits : track.SpansFit)
    (hunit : ∀ pose ∈ track.poses.toList, pose.orientation.norm = 1) (t : Int64)
    (ht : track.contains t = true) :
    (∃ position orientation, track.orientationAt t = .ok orientation ∧
        track.poseAt t = .ok ⟨t, position, orientation⟩ ∧
        (orientation.norm = 1 ↔ ¬ track.BetweenOpposites t)) ∧
      ∀ i (_ : i + 1 < track.poses.toList.length) (lower upper : Pose ℝ),
        lower = track.poses.toList[i] → upper = track.poses.toList[i + 1] →
        lower.timestamp < t → t < upper.timestamp →
        ((lower.orientation + (upper.orientation - lower.orientation).scale
            (fraction lower upper t)).norm = 0 ↔ track.BetweenOpposites t) := by
  constructor
  · rcases countBefore_cases ht with ⟨hi, hstored⟩ | ⟨i, hi, _, hlower, hupper⟩
    · have hanswers := answers_of_stored hi hstored
      refine ⟨_, _, hanswers.orientationAt_eq, hanswers.poseAt_eq, ?_⟩
      exact iff_of_true (hunit _ (List.getElem_mem hi)) (not_betweenOpposites_of_stored hi hstored)
    · have hanswers := answers_of_between hi hlower hupper
      refine ⟨_, _, hanswers.orientationAt_eq, hanswers.poseAt_eq, ?_⟩
      rw [Quaternion.lerp_def, Quaternion.norm_normalize_eq_one_iff, ne_eq,
        chord_eq_zero_iff_halfway hunit hi hfits hlower hupper,
        betweenOpposites_iff hi hlower hupper]
  · rintro i hi lower upper rfl rfl hlower hupper
    rw [chord_eq_zero_iff_halfway hunit hi hfits hlower hupper,
      betweenOpposites_iff hi hlower hupper]

def turnedOver {α : Type} [Scalar α] : Track α where
  poses := ⟨[⟨0, .zero, ⟨1.0, 0.0, 0.0, 0.0⟩⟩, ⟨4, .zero, ⟨-1.0, 0.0, 0.0, 0.0⟩⟩],
    List.pairwise_pair.2 (show (0 : Int64) < 4 by decide)⟩
  nonempty := List.cons_ne_nil _ _

theorem orientationAt_unit_iff_turnedOver :
    (turnedOver (α := ℝ)).SpansFit ∧
      (∀ pose ∈ (turnedOver (α := ℝ)).poses.toList, pose.orientation.norm = 1) ∧
      (turnedOver (α := ℝ)).contains 1 = true ∧
      ∃ orientation, (turnedOver (α := ℝ)).orientationAt 1 = .ok orientation ∧
        orientation.norm = 1 := by
  have hunit : ∀ pose ∈ (turnedOver (α := ℝ)).poses.toList, pose.orientation.norm = 1 := by
    simp only [turnedOver, List.forall_mem_cons, Quaternion.norm_eq_one_iff, Quaternion.dot_def]
    norm_num
  have hfits : (turnedOver (α := ℝ)).SpansFit := List.isChain_pair.2 (by decide)
  have hcontains : (turnedOver (α := ℝ)).contains 1 = true := rfl
  obtain ⟨_, orientation, hok, _, hiff⟩ := (orientationAt_unit_iff _ hfits hunit 1 hcontains).1
  refine ⟨hfits, hunit, hcontains, orientation, hok, hiff.2 ?_⟩
  rw [betweenOpposites_iff (i := 0) (by decide) (by decide) (by decide)]
  exact fun h => absurd h.time_eq (by decide)

/-- In binary numbers the quotient of zeros is no number: the orientation halfway has no norm. -/
theorem orientationAt_turnedOver_isNaN :
    (∀ pose ∈ (turnedOver (α := Float)).poses.toList, same pose.orientation.norm 1.0 = true) ∧
      (turnedOver (α := Float)).contains 2 = true ∧
      ∃ orientation, (turnedOver (α := Float)).orientationAt 2 = .ok orientation ∧
        isNaN orientation.norm = true := by
  have hanswers := (turnedOver (α := Float)).answers_of_between (t := 2) (i := 0) (by decide)
    (by decide) (by decide)
  exact ⟨by decide +kernel, by decide, _, hanswers.orientationAt_eq, by decide +kernel⟩

end Track
end TrackingScore
