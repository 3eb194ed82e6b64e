/-!
Whole numbers that fit words of 64 bits, with or without a sign.
-/

namespace TrackingScore

def int64? (n : Int) : Option Int64 :=
  if Int64.minValue.toInt ≤ n ∧ n ≤ Int64.maxValue.toInt then some (Int64.ofInt n) else none

theorem int64?_toInt (t : Int64) : int64? t.toInt = some t := by
  rw [int64?, if_pos ⟨Int64.minValue_le_toInt t, Int64.toInt_le t⟩, Int64.ofInt_toInt]

theorem int64?_eq_some_iff {n : Int} {t : Int64} : int64? n = some t ↔ t.toInt = n := by
  constructor
  · intro h
    by_cases hn : Int64.minValue.toInt ≤ n ∧ n ≤ Int64.maxValue.toInt
    · rw [int64?, if_pos hn] at h
      rw [← Option.some.inj h]
      rw [Int64.toInt_minValue, Int64.toInt_maxValue] at hn
      exact Int64.toInt_ofInt_of_le hn.1 (by omega)
    · rw [int64?, if_neg hn] at h
      cases h
  · rintro rfl
    exact int64?_toInt t

theorem int64?_eq_none {n : Int} (h : n < Int64.minValue.toInt ∨ Int64.maxValue.toInt < n) :
    int64? n = none :=
  if_neg (by omega)

def uint64? (n : Nat) : Option UInt64 := if n < UInt64.size then some (UInt64.ofNat n) else none

theorem uint64?_toNat (t : UInt64) : uint64? t.toNat = some t := by
  rw [uint64?, if_pos t.toNat_lt_size, UInt64.ofNat_toNat]

theorem uint64?_eq_some_iff {n : Nat} {t : UInt64} : uint64? n = some t ↔ t.toNat = n := by
  constructor
  · intro h
    by_cases hn : n < UInt64.size
    · rw [uint64?, if_pos hn] at h
      rw [← Option.some.inj h]
      exact UInt64.toNat_ofNat_of_lt hn
    · rw [uint64?, if_neg hn] at h
      cases h
  · rintro rfl
    exact uint64?_toNat t

end TrackingScore
