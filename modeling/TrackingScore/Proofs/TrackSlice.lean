import TrackingScore.Proofs.TrackScore

/-!
A part of a track answers as the whole. Neighbours of the part are neighbours of the track, so both
searches end at the same poses, and times beyond the part are out of its range even if the track has
an answer.
-/

namespace TrackingScore

theorem Series.exists_slice? {β : Type} {time : β → Int64} (s : Series β time) {start stop : Nat}
    (hlt : start < stop) (hle : stop ≤ s.length) :
    ∃ part, s.slice? start stop = some part ∧ part.toList = (s.toList.take stop).drop start ∧
      part.toList ≠ [] := by
  refine ⟨_, if_pos ⟨Nat.le_of_lt hlt, hle⟩, rfl, fun hnil => ?_⟩
  rw [List.drop_eq_nil_iff, List.length_take_of_le hle] at hnil
  omega

namespace Track

variable {α : Type} {track part : Track α} {start stop : Nat} {t : Int64}

/-- A track of the poses of another one from index `start` up to `stop`, which is left out. -/
structure SliceOf (part track : Track α) (start stop : Nat) : Prop where
  start_lt : start < stop
  stop_le : stop ≤ track.poses.toList.length
  toList_eq : part.poses.toList = (track.poses.toList.take stop).drop start

theorem exists_sliceOf (hlt : start < stop) (hle : stop ≤ track.poses.length) :
    ∃ poses part, track.poses.slice? start stop = some poses ∧ ofPoses poses = .ok part ∧
      part.SliceOf track start stop := by
  obtain ⟨poses, hslice, htoList, hne⟩ := track.poses.exists_slice? hlt hle
  exact ⟨poses, ⟨poses, hne⟩, hslice, dif_neg hne, hlt, hle, htoList⟩

namespace SliceOf

variable (h : part.SliceOf track start stop)
include h

theorem length_eq : part.poses.toList.length = stop - start := by
  rw [h.toList_eq, List.length_drop, List.length_take_of_le h.stop_le]

theorem getElem_eq {i : Nat} (hi : i < part.poses.toList.length) :
    ∃ _ : start + i < track.poses.toList.length,
      part.poses.toList[i] = track.poses.toList[start + i] := by
  have hlength := h.length_eq
  have hle := h.stop_le
  refine ⟨by omega, ?_⟩
  simp only [h.toList_eq, List.getElem_drop, List.getElem_take]

theorem first_eq : ∃ _ : start < track.poses.toList.length,
    part.first = track.poses.toList[start].timestamp := by
  obtain ⟨hstart, hget⟩ := h.getElem_eq part.length_pos
  refine ⟨hstart, ?_⟩
  rw [first, List.head_eq_getElem, hget]
  rfl

theorem last_eq : ∃ _ : stop - 1 < track.poses.toList.length,
    part.last = track.poses.toList[stop - 1].timestamp := by
  have hlt := h.start_lt
  have hlength := h.length_eq
  obtain ⟨hlast, hget⟩ := h.getElem_eq (Nat.sub_one_lt_of_lt part.length_pos)
  have hstop : start + (part.poses.toList.length - 1) = stop - 1 := by omega
  refine ⟨hstop ▸ hlast, ?_⟩
  rw [last, List.getLast_eq_getElem, hget]
  simp only [hstop]

/-- The pose or the neighbours at which the search ends stand in the track as well, `start` places
further on, and a search that has to end there does. -/
theorem bracket_eq (ht : part.contains t = true) : part.bracket t = track.bracket t := by
  rcases countBefore_cases ht with ⟨hi, hstored⟩ | ⟨i, hi, _, hlower, hupper⟩
  · obtain ⟨hj, hget⟩ := h.getElem_eq hi
    rw [bracket_of_stored hi hstored, bracket_of_stored hj (hget ▸ hstored), hget]
  · obtain ⟨_, hgetLower⟩ := h.getElem_eq (Nat.lt_of_succ_lt hi)
    obtain ⟨hj, hgetUpper⟩ := h.getElem_eq hi
    rw [bracket_of_between hi hlower hupper,
      bracket_of_between hj (hgetLower ▸ hlower) (hgetUpper ▸ hupper), hgetLower, hgetUpper]
    rfl

end SliceOf

variable [Scalar α]

structure AgreesAt (part track : Track α) (t : Int64) : Prop where
  position : part.positionAt t = track.positionAt t
  orientation : part.orientationAt t = track.orientationAt t
  pose : part.poseAt t = track.poseAt t

structure RefusesAt (part : Track α) (t : Int64) : Prop where
  position : part.positionAt t = .error (.outOfRange t part.first part.last)
  orientation : part.orientationAt t = .error (.outOfRange t part.first part.last)
  pose : part.poseAt t = .error (.outOfRange t part.first part.last)

theorem agreesAt_of_bracket_eq (h : part.bracket t = track.bracket t) : part.AgreesAt track t := by
  have hposition : part.positionAt t = track.positionAt t := by rw [positionAt, positionAt, h]
  have horientation : part.orientationAt t = track.orientationAt t := by
    rw [orientationAt, orientationAt, h]
  exact ⟨hposition, horientation, by rw [poseAt, poseAt, hposition, horientation]⟩

theorem refusesAt (h : part.contains t = false) : part.RefusesAt t := by
  obtain ⟨hposition, horientation, hpose⟩ := failsOutOfRange part t
  exact ⟨(hposition _).2 ⟨h, rfl⟩, (horientation _).2 ⟨h, rfl⟩, (hpose _).2 ⟨h, rfl⟩⟩

theorem AgreesAt.errorOf_eq {pose : Pose α} (h : part.AgreesAt track pose.timestamp) :
    part.errorOf pose = track.errorOf pose := by
  rw [errorOf, errorOf, h.position, h.orientation]

/-- A track that answers as another one does within its own range, and nothing beyond it. -/
structure AnswersLocally (part track : Track α) : Prop where
  query : ∀ t, part.contains t = true → part.AgreesAt track t
  query_outside : ∀ t, part.contains t = false → part.RefusesAt t
  batch : ∀ times, (∀ t ∈ times, part.contains t = true) →
    part.positionsAt times = track.positionsAt times ∧
      part.orientationsAt times = track.orientationsAt times ∧
      part.posesAt times = track.posesAt times
  batch_outside : ∀ before t after, (∀ s ∈ before, part.contains s = true) →
    part.contains t = false →
      part.positionsAt (before ++ t :: after) = .error (.outOfRange t part.first part.last) ∧
        part.orientationsAt (before ++ t :: after) = .error (.outOfRange t part.first part.last) ∧
        part.posesAt (before ++ t :: after) = .error (.outOfRange t part.first part.last)
  evaluate : ∀ estimated : PoseStream α,
    (∀ pose ∈ estimated.toList, part.contains pose.timestamp = true) →
      part.evaluate estimated = track.evaluate estimated
  evaluate_outside : ∀ (estimated : PoseStream α) before pose after,
    estimated.toList = before ++ pose :: after →
      (∀ former ∈ before, part.contains former.timestamp = true) →
      part.contains pose.timestamp = false →
        part.evaluate estimated = .error (.outOfRange pose.timestamp part.first part.last)

theorem answersLocally_of_bracket_eq
    (h : ∀ t, part.contains t = true → part.bracket t = track.bracket t) :
    part.AnswersLocally track := by
  have hagree : ∀ t, part.contains t = true → part.AgreesAt track t :=
    fun t ht => agreesAt_of_bracket_eq (h t ht)
  constructor
  case query => exact hagree
  case query_outside => exact fun t => refusesAt
  case batch =>
    intro times htimes
    exact ⟨mapM_eq_mapM (List.forall₂_same.2 fun t ht => (hagree t (htimes t ht)).position),
      mapM_eq_mapM (List.forall₂_same.2 fun t ht => (hagree t (htimes t ht)).orientation),
      mapM_eq_mapM (List.forall₂_same.2 fun t ht => (hagree t (htimes t ht)).pose)⟩
  case batch_outside =>
    intro before t after hbefore ht
    have hrefuses := refusesAt ht
    refine ⟨mapM_append_cons_of_error ?_ hrefuses.position,
      mapM_append_cons_of_error ?_ hrefuses.orientation,
      mapM_append_cons_of_error ?_ hrefuses.pose⟩ <;>
      intro s hs <;> obtain ⟨_, _, hanswers⟩ := exists_answers (hbefore s hs)
    · exact ⟨_, hanswers.positionAt_eq⟩
    · exact ⟨_, hanswers.orientationAt_eq⟩
    · exact ⟨_, hanswers.poseAt_eq⟩
  case evaluate =>
    intro estimated hinside
    by_cases hempty : estimated.toList = []
    · rw [evaluate_of_empty hempty, evaluate_of_empty hempty]
    · rw [evaluate_of_ne_nil hempty, evaluate_of_ne_nil hempty]
      exact mapM_eq_mapM (List.forall₂_same.2 fun pose hpose =>
        (hagree _ (hinside pose hpose)).errorOf_eq)
  case evaluate_outside =>
    intro estimated before pose after hsplit hbefore hpose
    have hne : estimated.toList ≠ [] := by simp [hsplit]
    rw [evaluate_of_ne_nil hne, hsplit]
    exact mapM_append_cons_of_error
      (fun former hformer => errorOf_of_contains (hbefore former hformer))
      (errorOf_of_not_contains hpose)

/-- Whatever part of the poses of a track is made a track of its own, it has the range from its
first to its last pose. Within it single queries, batches and evaluations give what the whole track
gives, down to the last bit; beyond it, and for the first time beyond it in a batch or an estimate,
they fail. -/
theorem slice_answersLocally (track : Track α) {start stop : Nat} (hlt : start < stop)
    (hle : stop ≤ track.poses.length) :
    ∃ poses part, track.poses.slice? start stop = some poses ∧ ofPoses poses = .ok part ∧
      (∃ _ : start < track.poses.toList.length,
        part.first = track.poses.toList[start].timestamp) ∧
      (∃ _ : stop - 1 < track.poses.toList.length,
        part.last = track.poses.toList[stop - 1].timestamp) ∧
      (∀ t, part.contains t = true ↔ part.first ≤ t ∧ t ≤ part.last) ∧
      part.AnswersLocally track := by
  obtain ⟨poses, part, hslice, hpart, hsliceOf⟩ := exists_sliceOf hlt hle
  exact ⟨poses, part, hslice, hpart, hsliceOf.first_eq, hsliceOf.last_eq, fun _ => contains_iff,
    answersLocally_of_bracket_eq fun _ => hsliceOf.bracket_eq⟩

def stairs : Track Float where
  poses := ⟨[⟨0, ⟨0.0, 0.0, 0.0⟩, .identity⟩, ⟨10, ⟨1.0, 0.0, 0.0⟩, .identity⟩,
    ⟨20, ⟨2.0, 0.0, 0.0⟩, .identity⟩, ⟨30, ⟨3.0, 0.0, 0.0⟩, .identity⟩], by decide⟩
  nonempty := by decide

theorem slice_answersLocally_stairs :
    1 < 3 ∧ 3 ≤ stairs.poses.length ∧
      ∃ poses part, stairs.poses.slice? 1 3 = some poses ∧ ofPoses poses = .ok part ∧
        part.AgreesAt stairs 20 ∧ part.posesAt [15, 10] = stairs.posesAt [15, 10] ∧
        part.posesAt [15, 25, 5] = .error (.outOfRange 25 10 20) ∧
        ∃ pose, stairs.poseAt 25 = .ok pose := by
  obtain ⟨poses, part, hslice, hpart, ⟨_, hfirst⟩, ⟨_, hlast⟩, hcontains, hlocal⟩ :=
    slice_answersLocally stairs (show 1 < 3 by decide) (show 3 ≤ stairs.poses.length by decide)
  have hrange : ∀ t, part.contains t = true ↔ 10 ≤ t ∧ t ≤ 20 := by
    intro t
    rw [hcontains, hfirst, hlast]
    rfl
  have hinside : ∀ t ∈ [15, 10], part.contains t = true := by
    simp [hrange]
  have hbatch := (hlocal.batch_outside [15] 25 [5] (by simp [hrange])
    (by rw [← Bool.not_eq_true, hrange]; decide)).2.2
  rw [hfirst, hlast] at hbatch
  obtain ⟨_, _, hanswers⟩ := exists_answers (show stairs.contains 25 = true by decide)
  exact ⟨by decide, by decide, poses, part, hslice, hpart,
    hlocal.query 20 ((hrange 20).2 (by decide)), (hlocal.batch [15, 10] hinside).2.2, hbatch, _,
    hanswers.poseAt_eq⟩

end Track
end TrackingScore
