import Mathlib.Data.Set.Subsingleton
import Mathlib.Order.Bounds.Basic
import TrackingScore.Proofs.NearestFrame

/-!
Nearest times among sorted ones of which some are repeated. The search stops in front of the first
time that does not come before the query. So of several indices of the nearest time it finds the last
one where that time comes before the query, and otherwise the first one.
-/

namespace TrackingScore

variable {times : List Int64} {t : Int64} {i j : Nat}

/-- Indices of the times nearest to `t`. -/
def nearestIndices (times : List Int64) (t : Int64) : Set Nat :=
  {i | ∃ hi : i < times.length,
    ∀ j (hj : j < times.length), timeDistance t times[i] ≤ timeDistance t times[j]}

def nearestNotBefore (times : List Int64) (t : Int64) : Set Nat :=
  {i ∈ nearestIndices times t | ∃ hi : i < times.length, t ≤ times[i]}

instance : DecidablePred (· ∈ nearestIndices times t) :=
  fun i => inferInstanceAs (Decidable (∃ _ : i < times.length, ∀ j (_ : j < _), _ ≤ _))

instance : DecidablePred (· ∈ nearestNotBefore times t) :=
  fun i => inferInstanceAs (Decidable (i ∈ nearestIndices times t ∧ ∃ _ : i < times.length, _ ≤ _))

theorem mem_nearestIndices_of_nearestIndex (hs : times.Pairwise (· ≤ ·))
    (h : nearestIndex times t = some i) : i ∈ nearestIndices times t := by
  obtain ⟨hi, hnearer⟩ := nearer_of_nearestIndex hs h
  exact ⟨hi, fun j hj => (hnearer j hj).1⟩

theorem nearestIndex_cases (h : nearestIndex times t = some i) :
    countBefore id times t = i ∨ countBefore id times t = i + 1 := by
  rw [nearestIndex] at h
  grind

section sorted

variable (hs : times.Pairwise (· ≤ ·))
include hs

theorem isLeast_of_countBefore (h : nearestIndex times t = some i)
    (hi : countBefore id times t = i) : IsLeast (nearestNotBefore times t) i := by
  have hmem := mem_nearestIndices_of_nearestIndex hs h
  refine ⟨⟨hmem, hmem.1, le_time_of_countBefore id hmem.1 hi⟩, ?_⟩
  rintro j ⟨-, hj, hle⟩
  by_contra hlt
  have hcount : j < countBefore id times t := by omega
  have hbefore : times[j] < t := (time_lt_iff_lt_countBefore hs hj).2 hcount
  exact Int64.lt_irrefl (Int64.lt_of_le_of_lt hle hbefore)

theorem isGreatest_of_countBefore (h : nearestIndex times t = some i)
    (hi : countBefore id times t = i + 1) :
    nearestNotBefore times t = ∅ ∧ IsGreatest (nearestIndices times t) i := by
  have hmem := mem_nearestIndices_of_nearestIndex hs h
  obtain ⟨hlength, hnearer⟩ := nearer_of_nearestIndex hs h
  have hfound : times[i] < t := time_lt_of_countBefore id hlength hi
  have hbefore {j : Nat} (hj : j ∈ nearestIndices times t) (hlt : j < times.length) :
      times[j] < t := by
    -- a time as near as the one found is not a later one
    have hnear := hj.2 i hlength
    have hle := (hnearer j hlt).2 (Nat.le_antisymm hnear (hnearer j hlt).1)
    exact Int64.lt_of_le_of_lt hle hfound
  refine ⟨Set.eq_empty_of_forall_notMem ?_, hmem, fun j hj => ?_⟩
  · rintro j ⟨hj, hlt, hle⟩
    exact Int64.lt_irrefl (Int64.lt_of_le_of_lt hle (hbefore hj hlt))
  · have hcount : j < countBefore id times t :=
      (time_lt_iff_lt_countBefore hs hj.1).1 (hbefore hj hj.1)
    omega

/-- The first index of the nearest time not before `t`, or the last one of the nearest before it. -/
theorem isLeast_or_isGreatest (h : nearestIndex times t = some i) :
    IsLeast (nearestNotBefore times t) i ∨
      nearestNotBefore times t = ∅ ∧ IsGreatest (nearestIndices times t) i :=
  (nearestIndex_cases h).imp (isLeast_of_countBefore hs h) (isGreatest_of_countBefore hs h)

theorem nearestIndex_eq_some_iff :
    nearestIndex times t = some i ↔ IsLeast (nearestNotBefore times t) i ∨
      nearestNotBefore times t = ∅ ∧ IsGreatest (nearestIndices times t) i := by
  refine ⟨isLeast_or_isGreatest hs, fun hi => ?_⟩
  have hlength : i < times.length := by
    rcases hi with hleast | ⟨-, hgreatest⟩
    · exact hleast.1.1.1
    · exact hgreatest.1.1
  have hne : times ≠ [] := List.ne_nil_of_length_pos (by omega)
  obtain ⟨j, hj⟩ := Option.ne_none_iff_exists'.1 (mt nearestIndex_eq_none_iff.1 hne)
  rw [hj, Option.some.injEq]
  -- both descriptions fit one index only, and they exclude each other
  rcases hi, isLeast_or_isGreatest hs hj with ⟨hi | ⟨hempty, hi⟩, hj | ⟨hempty', hj⟩⟩
  · exact hj.unique hi
  · exact absurd hi.1 (by simp [hempty'])
  · exact absurd hj.1 (by simp [hempty])
  · exact hj.unique hi

/-- The index found is the last of all nearest ones exactly if the nearest time not before `t`, if
there is one, is not repeated. -/
theorem isGreatest_iff_subsingleton (h : nearestIndex times t = some i) :
    IsGreatest (nearestIndices times t) i ↔ (nearestNotBefore times t).Subsingleton := by
  rcases isLeast_or_isGreatest hs h with hleast | ⟨hempty, hgreatest⟩
  · constructor
    · intro hgreatest j hj k hk
      have hj' := Nat.le_antisymm (hgreatest.2 hj.1) (hleast.2 hj)
      have hk' := Nat.le_antisymm (hgreatest.2 hk.1) (hleast.2 hk)
      rw [hj', hk']
    · intro hsingle
      refine ⟨hleast.1.1, fun j hj => ?_⟩
      obtain ⟨-, hlength, hle⟩ := hleast.1
      have hj' : j < times.length := hj.1
      rcases Int64.lt_or_le times[j] t with hlt | hnot
      · by_contra hij
        have hmono : times[i] ≤ times[j] := @time_getElem_le _ id _ hs i j (by omega) hj'
        exact Int64.lt_irrefl (Int64.lt_of_le_of_lt (Int64.le_trans hle hmono) hlt)
      · exact (hsingle ⟨hj, hj', hnot⟩ hleast.1).le
  · rw [hempty]
    exact iff_of_true hgreatest Set.subsingleton_empty

end sorted

/-- Among sorted times the nearest one is found, of different times equally near the later one, and
none only in an empty list. Of the indices of the time found it is the first one, or the last one if
that time comes before `t`. -/
theorem nearestIndex_sorted (hs : times.Pairwise (· ≤ ·)) (t : Int64) :
    (nearestIndex times t = none ↔ times = []) ∧
      (∀ i, nearestIndex times t = some i ↔ IsLeast (nearestNotBefore times t) i ∨
        nearestNotBefore times t = ∅ ∧ IsGreatest (nearestIndices times t) i) ∧
      ∀ i, nearestIndex times t = some i →
        (IsGreatest (nearestIndices times t) i ↔ (nearestNotBefore times t).Subsingleton) :=
  ⟨nearestIndex_eq_none_iff, fun _ => nearestIndex_eq_some_iff hs,
    fun _ => isGreatest_iff_subsingleton hs⟩

theorem nearestIndex_sorted_tied :
    [1, 5, 5].Pairwise (· ≤ · : Int64 → Int64 → Prop) ∧ nearestIndex [1, 5, 5] 3 = some 1 ∧
      2 ∈ nearestIndices [1, 5, 5] 3 := by
  have hs : [1, 5, 5].Pairwise (· ≤ · : Int64 → Int64 → Prop) := by decide
  have hleast : IsLeast (nearestNotBefore [1, 5, 5] 3) 1 := by
    refine ⟨by decide, fun j hj => Nat.one_le_iff_ne_zero.2 ?_⟩
    rintro rfl
    exact absurd hj (by decide)
  exact ⟨hs, ((nearestIndex_sorted hs 3).2.1 1).2 (.inl hleast), by decide⟩

/-- Of a time that is there twice the first index is found, although the second is as near. -/
theorem nearestIndex_twice :
    [5, 5].Pairwise (· ≤ · : Int64 → Int64 → Prop) ∧ nearestIndex [5, 5] 5 = some 0 ∧
      IsGreatest (nearestIndices [5, 5] 5) 1 := by
  have hs : [5, 5].Pairwise (· ≤ · : Int64 → Int64 → Prop) := by decide
  have hleast : IsLeast (nearestNotBefore [5, 5] 5) 0 := ⟨by decide, fun _ _ => Nat.zero_le _⟩
  exact ⟨hs, (nearestIndex_eq_some_iff hs).2 (.inl hleast), by decide,
    fun _ hi => Nat.le_of_lt_succ hi.1⟩

end TrackingScore
