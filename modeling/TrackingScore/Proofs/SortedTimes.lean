import TrackingScore.Search
import TrackingScore.Series

/-!
Lists in order of time, and what a search among them finds: the items that come before a time are
exactly those in front of the index found.
-/

namespace TrackingScore

variable {β : Type} {time : β → Int64} {items : List β} {t : Int64}

theorem time_getElem_le (hs : items.Pairwise fun a b => time a ≤ time b) {i j : Nat}
    (hij : i ≤ j) (hj : j < items.length) : time items[i] ≤ time items[j] := by
  rcases Nat.lt_or_eq_of_le hij with hlt | rfl
  · exact List.pairwise_iff_getElem.1 hs i j _ hj hlt
  · exact Int64.le_refl _

theorem time_lt_iff_lt_countBefore (hs : items.Pairwise fun a b => time a ≤ time b) {i : Nat}
    (hi : i < items.length) : time items[i] < t ↔ i < countBefore time items t := by
  have hle : countBefore time items t ≤ items.length := countBefore_le_length time
  constructor
  · intro hlt
    refine Nat.lt_of_not_le fun hge => ?_
    have hk : countBefore time items t < items.length := by omega
    have hafter := le_time_of_countBefore time hk rfl
    have hmono := time_getElem_le hs hge hi
    exact Int64.lt_irrefl (Int64.lt_of_lt_of_le hlt (Int64.le_trans hafter hmono))
  · intro hlt
    have hk : countBefore time items t - 1 < items.length := by omega
    have hbefore := time_lt_of_countBefore time (t := t) hk (by omega)
    exact Int64.lt_of_le_of_lt (time_getElem_le hs (by omega) hk) hbefore

theorem countBefore_eq (hs : items.Pairwise fun a b => time a ≤ time b) {i : Nat}
    (hi : i ≤ items.length) (hbefore : ∀ j (hj : j < i), time items[j] < t)
    (hafter : ∀ h : i < items.length, t ≤ time items[i]) : countBefore time items t = i := by
  have hle : countBefore time items t ≤ items.length := countBefore_le_length time
  rcases Nat.lt_trichotomy (countBefore time items t) i with hlt | heq | hgt
  · have hk := hbefore _ hlt
    exact absurd ((time_lt_iff_lt_countBefore hs (by omega)).1 hk) (Nat.lt_irrefl _)
  · exact heq
  · have hi' : i < items.length := by omega
    have hlt := (time_lt_iff_lt_countBefore hs hi').2 hgt
    exact absurd (Int64.lt_of_lt_of_le hlt (hafter hi')) Int64.lt_irrefl

namespace Series

variable (s : Series β time)

theorem time_lt_time_iff {i j : Nat} (hi : i < s.toList.length) (hj : j < s.toList.length) :
    time s.toList[i] < time s.toList[j] ↔ i < j := by
  have hlt : ∀ {i j : Nat} (hi : i < s.toList.length) (hj : j < s.toList.length), i < j →
      time s.toList[i] < time s.toList[j] :=
    fun hi hj => List.pairwise_iff_getElem.1 s.increasing _ _ hi hj
  refine ⟨fun h => ?_, hlt hi hj⟩
  rcases Nat.lt_trichotomy i j with hij | rfl | hji
  · exact hij
  · exact absurd h Int64.lt_irrefl
  · exact absurd (Int64.lt_trans h (hlt hj hi hji)) Int64.lt_irrefl

theorem time_le_time_iff {i j : Nat} (hi : i < s.toList.length) (hj : j < s.toList.length) :
    time s.toList[i] ≤ time s.toList[j] ↔ i ≤ j := by
  rw [← Int64.not_lt, s.time_lt_time_iff hj hi, Nat.not_lt]

theorem pairwise_le : s.toList.Pairwise fun a b => time a ≤ time b :=
  s.increasing.imp Int64.le_of_lt

end Series

end TrackingScore
