/-!
Search by halving. Where the indices `before` some limit come first, `bisect` finds the first one
that is not; its laws say so of the index itself and of the one in front of it. `countBefore`
searches items in order of time.
-/

namespace TrackingScore

/-- Halves the range of indices from `low` up to `high`, which is left out, until it is empty. -/
def bisect {n : Nat} (before : Fin n → Bool) (low high : Nat) (h : high ≤ n) : Nat :=
  if hlt : low < high then
    let mid := low + (high - low) / 2
    if before ⟨mid, by omega⟩ then bisect before (mid + 1) high h
    else bisect before low mid (by omega)
  else low
termination_by high - low

theorem bisect_mem {n : Nat} (before : Fin n → Bool) (low high : Nat) (h : high ≤ n)
    (hle : low ≤ high) : low ≤ bisect before low high h ∧ bisect before low high h ≤ high := by
  fun_induction bisect before low high h with
  | case1 low high h hlt mid hmid ih =>
    have := ih (by omega)
    omega
  | case2 low high h hlt mid hmid ih =>
    have := ih (by omega)
    omega
  | case3 low high h hlt => omega

theorem not_before_of_bisect {n : Nat} {before : Fin n → Bool} {low high : Nat} {h : high ≤ n}
    {i : Fin n} (hi : bisect before low high h = i.val) (hlt : i.val < high) :
    before i = false := by
  fun_induction bisect before low high h with
  | case1 low high h _ mid hmid ih => exact ih hi hlt
  | case2 low high h hlh mid hmid ih =>
    have hle := (bisect_mem before low mid (by omega) (by omega)).2
    rcases Nat.lt_or_ge i.val mid with him | him
    · exact ih hi him
    · have him : i = ⟨mid, by omega⟩ := Fin.ext (show i.val = mid by omega)
      simpa only [him, Bool.not_eq_true] using hmid
  | case3 low high h hlh => omega

theorem before_of_bisect {n : Nat} {before : Fin n → Bool} {low high : Nat} {h : high ≤ n}
    {i : Fin n} (hi : bisect before low high h = i.val + 1) (hle : low ≤ i.val) :
    before i = true := by
  fun_induction bisect before low high h with
  | case1 low high h hlt mid hmid ih =>
    have hmem := (bisect_mem before (mid + 1) high h (by omega)).1
    rcases Nat.lt_or_ge mid i.val with him | him
    · exact ih hi him
    · have him : i = ⟨mid, by omega⟩ := Fin.ext (show i.val = mid by omega)
      simpa only [him] using hmid
  | case2 low high h hlt mid hmid ih => exact ih hi hle
  | case3 low high h hlh => omega

/-- How many of the items, which are in order of time, come before a time. -/
def countBefore {β : Type} (time : β → Int64) (items : List β) (t : Int64) : Nat :=
  bisect (fun i : Fin items.length => decide (time items[i] < t)) 0 items.length (Nat.le_refl _)

section countBefore

variable {β : Type} (time : β → Int64) {items : List β} {t : Int64}

theorem countBefore_le_length : countBefore time items t ≤ items.length :=
  (bisect_mem _ 0 items.length (Nat.le_refl _) (Nat.zero_le _)).2

theorem le_time_of_countBefore {i : Nat} (h : i < items.length)
    (hi : countBefore time items t = i) : t ≤ time items[i] := by
  have hfalse := not_before_of_bisect (i := ⟨i, h⟩) hi h
  simpa using hfalse

theorem time_lt_of_countBefore {i : Nat} (h : i < items.length)
    (hi : countBefore time items t = i + 1) : time items[i] < t := by
  have htrue := before_of_bisect (i := ⟨i, h⟩) hi (Nat.zero_le _)
  simpa using htrue

end countBefore

end TrackingScore
