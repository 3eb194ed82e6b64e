import Mathlib.Analysis.Convex.Segment
import Mathlib.Data.List.Sort
import TrackingScore.Proofs.Exact.Vector3
import TrackingScore.Proofs.TrackSlice

/-!
A track asked for a pose and given that pose as one of its own. With exact numbers the path stays where
it was: only the neighbours on either side of the new pose are affected, and each half of their chord
is a chord of its own along the same line.
-/

namespace TrackingScore

theorem Series.pairwise_orderedInsert {β : Type} {time : β → Int64} {items : List β} {x : β}
    (hitems : items.Pairwise fun a b => time a < time b)
    (hx : ∀ item ∈ items, time item ≠ time x) :
    (items.orderedInsert (fun a b => time a ≤ time b) x).Pairwise fun a b => time a < time b := by
  induction items with
  | nil => exact List.pairwise_singleton _ _
  | cons item items ih =>
    obtain ⟨hitem, hrest⟩ := List.pairwise_cons.1 hitems
    obtain ⟨hne, hx⟩ := List.forall_mem_cons.1 hx
    rw [List.orderedInsert_cons]
    split
    · rename_i hle
      have hlt : time x < time item := Int64.lt_of_le_of_ne hle (Ne.symm hne)
      refine List.pairwise_cons.2 ⟨List.forall_mem_cons.2 ⟨hlt, fun other hother => ?_⟩, hitems⟩
      exact Int64.lt_trans hlt (hitem other hother)
    · rename_i hle
      refine List.pairwise_cons.2 ⟨fun other hother => ?_, ih hrest hx⟩
      rcases (List.mem_orderedInsert _).1 hother with rfl | hother
      · exact Int64.not_le.1 hle
      · exact hitem other hother

namespace Vector3

end Vector3

namespace Track

variable {α : Type} {track : Track α} {pose lower upper : Pose α} {t : Int64}

/-- Two poses of a track, one after the other and with none between them. -/
structure Neighbours (track : Track α) (lower upper : Pose α) : Prop where
  lower_mem : lower ∈ track.poses.toList
  upper_mem : upper ∈ track.poses.toList
  lt : lower.timestamp < upper.timestamp
  apart : ∀ pose ∈ track.poses.toList,
    pose.timestamp ≤ lower.timestamp ∨ upper.timestamp ≤ pose.timestamp

theorem neighbours_iff : track.Neighbours lower upper ↔
    ∃ i, ∃ (_ : i < track.poses.toList.length) (_ : i + 1 < track.poses.toList.length),
      lower = track.poses.toList[i] ∧ upper = track.poses.toList[i + 1] := by
  constructor
  · rintro ⟨hlower, hupper, hlt, hapart⟩
    obtain ⟨i, hi, rfl⟩ := List.getElem_of_mem hlower
    obtain ⟨j, hj, rfl⟩ := List.getElem_of_mem hupper
    have hij := (track.poses.time_lt_time_iff hi hj).1 hlt
    obtain rfl : j = i + 1 := by
      rcases hapart _ (List.getElem_mem (Nat.lt_of_le_of_lt hij hj)) with hle | hle
      · have := (track.poses.time_le_time_iff (Nat.lt_of_le_of_lt hij hj) hi).1 hle
        omega
      · have := (track.poses.time_le_time_iff hj (Nat.lt_of_le_of_lt hij hj)).1 hle
        omega
    exact ⟨i, hi, hj, rfl, rfl⟩
  · rintro ⟨i, _, hi, rfl, rfl⟩
    refine ⟨List.getElem_mem _, List.getElem_mem hi,
      (track.poses.time_lt_time_iff (Nat.lt_of_succ_lt hi) hi).2 (Nat.lt_succ_self i), ?_⟩
    intro pose hpose
    obtain ⟨j, hj, rfl⟩ := List.getElem_of_mem hpose
    rw [track.poses.time_le_time_iff hj (Nat.lt_of_succ_lt hi), track.poses.time_le_time_iff hi hj]
    omega

/-- The track with a pose added whose time none of its poses has. -/
def insert (track : Track α) (pose : Pose α)
    (h : ∀ other ∈ track.poses.toList, other.timestamp ≠ pose.timestamp) : Track α where
  poses := ⟨track.poses.toList.orderedInsert (fun a b => a.timestamp ≤ b.timestamp) pose,
    Series.pairwise_orderedInsert track.poses.increasing h⟩
  nonempty := List.ne_nil_of_mem ((List.mem_orderedInsert _).2 (.inl rfl))

section insert

variable (h : ∀ other ∈ track.poses.toList, other.timestamp ≠ pose.timestamp)

theorem mem_insert {other : Pose α} :
    other ∈ (track.insert pose h).poses.toList ↔ other = pose ∨ other ∈ track.poses.toList :=
  List.mem_orderedInsert _

variable (hcontains : track.contains pose.timestamp = true)
include hcontains

end insert

theorem Neighbours.insert (hneighbours : track.Neighbours lower upper)
    (h : ∀ other ∈ track.poses.toList, other.timestamp ≠ pose.timestamp)
    (hpose : pose.timestamp ≤ lower.timestamp ∨ upper.timestamp ≤ pose.timestamp) :
    (track.insert pose h).Neighbours lower upper where
  lower_mem := (mem_insert h).2 (.inr hneighbours.lower_mem)
  upper_mem := (mem_insert h).2 (.inr hneighbours.upper_mem)
  lt := hneighbours.lt
  apart := by
    intro other hother
    rcases (mem_insert h).1 hother with rfl | hmem
    · exact hpose
    · exact hneighbours.apart other hmem

theorem Neighbours.split (hneighbours : track.Neighbours lower upper)
    (h : ∀ other ∈ track.poses.toList, other.timestamp ≠ pose.timestamp)
    (hlower : lower.timestamp < pose.timestamp) (hupper : pose.timestamp < upper.timestamp) :
    (track.insert pose h).Neighbours lower pose ∧ (track.insert pose h).Neighbours pose upper := by
  have hpose := (mem_insert h).2 (.inl rfl)
  refine ⟨⟨(mem_insert h).2 (.inr hneighbours.lower_mem), hpose, hlower, fun other hother => ?_⟩,
    ⟨hpose, (mem_insert h).2 (.inr hneighbours.upper_mem), hupper, fun other hother => ?_⟩⟩
  · rcases (mem_insert h).1 hother with rfl | hmem
    · exact .inr (Int64.le_refl _)
    · exact (hneighbours.apart other hmem).imp_right (Int64.le_trans (Int64.le_of_lt hupper))
  · rcases (mem_insert h).1 hother with rfl | hmem
    · exact .inl (Int64.le_refl _)
    · exact (hneighbours.apart other hmem).imp_left (Int64.le_trans · (Int64.le_of_lt hlower))

section queries

variable [Scalar α]

theorem Neighbours.answers (h : track.Neighbours lower upper) (hlower : lower.timestamp < t)
    (hupper : t < upper.timestamp) :
    track.Answers t (lower.position.lerp upper.position (fraction lower upper t))
      (lower.orientation.lerp upper.orientation (fraction lower upper t)) := by
  obtain ⟨i, _, hi, rfl, rfl⟩ := neighbours_iff.1 h
  exact answers_of_between hi hlower hupper

end queries

section exact

variable {track : Track ℝ} {pose lower upper : Pose ℝ}

section halves

variable (hlower : lower.timestamp < pose.timestamp) (hupper : pose.timestamp < upper.timestamp)
  (hspan : lower.SpanFits upper)
include hlower hupper hspan

end halves

end exact

end Track
end TrackingScore
