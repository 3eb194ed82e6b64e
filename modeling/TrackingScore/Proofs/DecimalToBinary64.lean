import Mathlib
import TrackingScore.Decimal.Reading
import TrackingScore.Proofs.Binary64Rounding
import TrackingScore.Proofs.PlainDecimal

/-!
Plain decimal text read as a binary64 number: the nearest one to the number the text stands for.
Whole numbers below `2 ^ 53` and small powers of ten are exact, so one operation rounds their quotient;
other quotients are rounded from their exact numerators and denominators. What is cut off before is
nearest to zero or out of range.
-/

namespace TrackingScore.Binary64

open Float.Model Float.Model.UnpackedFloat

section literals

theorem ofFloat_zero : ofFloat 0.0 = .finite false 0 (-1074) := by decide +kernel

theorem ofFloat_infinite : ofFloat (1.0 / 0.0) = .infinite false := by decide +kernel

theorem ofFloat_powerOfTen : ∀ k : Fin Float.exactlyRepresentablePowersOfTen.size,
    ofFloat Float.exactlyRepresentablePowersOfTen[k] =
      .finite false (5 ^ k.val * 2 ^ (52 - (5 ^ k.val).log2))
        ((k.val : ℤ) - (52 - (5 ^ k.val).log2 : ℕ)) := by
  decide +kernel

end literals

section quotients

variable {n k : ℕ}

theorem unpacked_of_finite {u : UnpackedFloat} {m : ℕ} {e : ℤ} (hpos : 0 < m)
    (h : ofUnpacked u = .finite false m e) : u = .finite .positive m e hpos := by
  cases u with
  | notANumber => cases h
  | infinity sign => cases h
  | zero sign =>
    injection h with _ hm
    exact absurd hpos (hm ▸ Nat.lt_irrefl 0)
  | finite sign m' e' hpos' =>
    cases sign
    · cases h
    · cases h
      rfl

theorem unpack_powerOfTen (hk : k < Float.exactlyRepresentablePowersOfTen.size) :
    Float.exactlyRepresentablePowersOfTen[k].toModel.unpack =
      .finite .positive (5 ^ k * 2 ^ (52 - (5 ^ k).log2)) ((k : ℤ) - (52 - (5 ^ k).log2 : ℕ))
        (Nat.mul_pos (Nat.pow_pos (Nat.succ_pos 4)) (Nat.two_pow_pos _)) := by
  refine unpacked_of_finite _ ?_
  rw [← ofFloat_eq]
  exact ofFloat_powerOfTen ⟨k, hk⟩

theorem powerOfTen_eq (k s : ℕ) :
    ((5 ^ k * 2 ^ s : ℕ) : ℚ) * 2 ^ ((k : ℤ) - s) = 10 ^ k := by
  have hsplit : (2 : ℚ) ^ k = 2 ^ s * 2 ^ ((k : ℤ) - s) := by
    rw [← zpow_natCast, ← zpow_natCast, ← two_zpow_split, add_sub_cancel]
  have hten : (10 : ℚ) ^ k = 5 ^ k * 2 ^ k := by rw [← mul_pow]; norm_num
  rw [hten, hsplit]
  push_cast
  ring

theorem scaled_eq (m s : ℕ) : ((m * 2 ^ s : ℕ) : ℚ) * 2 ^ (-(s : ℤ)) = m := by
  rw [zpow_neg, zpow_natCast]
  push_cast
  field_simp

theorem holds_fast (hn : 0 < n) (hfast : n < 2 ^ 53)
    (hk : k < Float.exactlyRepresentablePowersOfTen.size) :
    ∃ v, NearestBinary64 (n / 10 ^ k) v ∧
      Holds (ofFloat (n.toUInt64.toFloat / Float.exactlyRepresentablePowersOfTen[k])) v := by
  have hquotient := holds_div (-((52 - n.log2 : ℕ) : ℤ)) ((k : ℤ) - (52 - (5 ^ k).log2 : ℕ))
    (show 0 < n * 2 ^ (52 - n.log2) by positivity)
    (show 0 < 5 ^ k * 2 ^ (52 - (5 ^ k).log2) by positivity)
  rw [powerOfTen_eq, scaled_eq, ← unpack_toFloat hn hfast, ← unpack_powerOfTen hk] at hquotient
  rw [ofFloat_eq]
  exact hquotient

theorem holds_fast_whole (hn : 0 < n) (hfast : n < 2 ^ 53) :
    ∃ v, NearestBinary64 n v ∧
      Holds (ofFloat (n.toUInt64.toFloat * Float.exactlyRepresentablePowersOfTen[0])) v := by
  have hproduct := holds_mul (-((52 - n.log2 : ℕ) : ℤ)) (((0 : ℕ) : ℤ) - (52 - (5 ^ 0).log2 : ℕ))
    (show 0 < n * 2 ^ (52 - n.log2) by positivity)
    (show 0 < 5 ^ 0 * 2 ^ (52 - (5 ^ 0).log2) by positivity)
    (Nat.le_mul_of_pos_left _ (by positivity))
  rw [powerOfTen_eq, scaled_eq, pow_zero, mul_one, ← unpack_toFloat hn hfast,
    ← unpack_powerOfTen (by decide)] at hproduct
  rw [ofFloat_eq]
  exact hproduct

theorem holds_exact_whole (hn : 0 < n) :
    ∃ v, NearestBinary64 n v ∧
      Holds (ofFloat (Float.ofModel (Float.Model.ofScientific n (Int.ofNat 0)))) v := by
  have hshifted : n <<< 53 = n * 2 ^ 53 := Nat.shiftLeft_eq n 53
  have hpos : 0 < n <<< 53 := by rw [hshifted]; positivity
  have hproduct := holds_mul (-((53 : ℕ) : ℤ)) 0 hpos (show 0 < 10 ^ 0 by decide) (by
    rw [hshifted, pow_zero, mul_one]
    exact (Nat.pow_le_pow_right (by decide) (by decide)).trans (Nat.le_mul_of_pos_left _ hn))
  have hmultiply : UnpackedFloat.ofScientific Format.binary64 n (Int.ofNat 0) =
      UnpackedFloat.mul Format.binary64 (.finite .positive (n <<< 53) (-((53 : ℕ) : ℤ)) hpos)
        (.finite .positive (10 ^ 0) 0 (by decide)) := by
    rw [UnpackedFloat.ofScientific, dif_neg hn.ne', if_neg (by decide), if_neg (by
      change ¬(0 : ℤ) < -(2 ^ 11 + (n.log2 : ℤ))
      omega), if_pos (by decide)]
    have hbits : Format.binary64.mantissaBits = 53 := rfl
    have hpower : (Int.ofNat 0).toNat = 0 := rfl
    simp only [hbits, hpower]
  have hvalue : ((n <<< 53 : ℕ) : ℚ) * 2 ^ (-((53 : ℕ) : ℤ)) * (((10 ^ 0 : ℕ) : ℚ) * 2 ^ (0 : ℤ)) =
      n := by
    rw [hshifted, scaled_eq, pow_zero, Nat.cast_one, zpow_zero, mul_one, mul_one]
  rw [hvalue, ← hmultiply] at hproduct
  rw [ofFloat_eq]
  exact hproduct

theorem holds_exact (hn : 0 < n) (hk : 0 < k) (hsize : k ≤ 2048 + n.log2) :
    ∃ v, NearestBinary64 (n / 10 ^ k) v ∧
      Holds (ofFloat (Float.ofModel (Float.Model.ofScientific n (Int.negOfNat k)))) v := by
  have hquotient := holds_div 0 0 hn (show 0 < 10 ^ k by positivity)
  have hexponent : Int.negOfNat k = -(k : ℤ) := by
    cases k <;> rfl
  have hdivide : UnpackedFloat.ofScientific Format.binary64 n (Int.negOfNat k) =
      UnpackedFloat.div Format.binary64 (.finite .positive n 0 hn)
        (.finite .positive (10 ^ k) 0 (by positivity)) := by
    have hpower : (-(-(k : ℤ))).toNat = k := by omega
    rw [hexponent, UnpackedFloat.ofScientific, dif_neg hn.ne', if_neg (by
      change ¬(2 ^ 11 : ℤ) < -(k : ℤ)
      omega), if_neg (by
      change ¬-(k : ℤ) < -(2 ^ 11 + (n.log2 : ℤ))
      omega), if_neg (by omega)]
    simp only [hpower]
  simp only [zpow_zero, mul_one, Nat.cast_pow, Nat.cast_ofNat] at hquotient
  rw [ofFloat_eq]
  change ∃ v, _ ∧ Holds (ofUnpacked (Float.Model.pack
    (UnpackedFloat.ofScientific Format.binary64 n (Int.negOfNat k))).unpack) v
  rw [hdivide]
  exact hquotient

theorem holds_ofScientific_zero (hn : 0 < n) :
    ∃ v, NearestBinary64 n v ∧ Holds (ofFloat (Float.ofScientific n false 0)) v := by
  by_cases hfast : n < 2 ^ 53
  · rw [Float.ofScientific, dif_pos ⟨hfast, by decide⟩]
    exact holds_fast_whole hn hfast
  · rw [Float.ofScientific, dif_neg fun h => hfast h.1]
    exact holds_exact_whole hn

theorem holds_ofScientific_pos (hn : 0 < n) (hk : 0 < k) (hsize : k ≤ 2048 + n.log2) :
    ∃ v, NearestBinary64 (n / 10 ^ k) v ∧ Holds (ofFloat (Float.ofScientific n true k)) v := by
  by_cases hfast : n < 2 ^ 53 ∧ k ≤ 22
  · rw [Float.ofScientific, dif_pos hfast]
    exact holds_fast hn hfast.1 _
  · rw [Float.ofScientific, dif_neg hfast]
    exact holds_exact hn hk hsize

end quotients

section cutoffs

variable {x : ℚ} {n k len : ℕ}

theorem nearestBinary64_zero (hx : 0 ≤ x) (h : x * 2 ^ 1075 ≤ 1) : NearestBinary64 x 0 := by
  obtain ⟨z, hz⟩ : ∃ z, z = x * 2 ^ 1075 := ⟨_, rfl⟩
  have hunit : x / 2 ^ (-1074 : ℤ) = z / 2 := by
    rw [zpow_neg, div_inv_eq_mul, show (1074 : ℤ) = (1074 : ℕ) from rfl, zpow_natCast, hz,
      pow_succ 2 1074, ← mul_assoc, mul_div_cancel_right₀ _ two_ne_zero]
  have hnonneg : 0 ≤ z := hz ▸ by positivity
  rw [← hz] at h
  clear hz
  have hnear := nearestBinary64_of_grid (x := x) (n := 0) (t := -1074) le_rfl (.inl rfl)
    (by rw [hunit]; linarith) (by
      rw [hunit, NearestEven, Nat.cast_zero, sub_zero, abs_of_nonneg (by linarith)]
      exact ⟨by linarith, fun _ => rfl⟩)
  rwa [Nat.cast_zero, zero_mul] at hnear

theorem holds_infinite (hx : 2 ^ 1024 ≤ x) :
    ∃ v, NearestBinary64 x v ∧ Holds (.infinite false) v := by
  obtain ⟨v, hv⟩ := exists_nearestBinary64 (le_trans (by positivity) hx)
  exact ⟨v, hv, hv.le_of_le (representable_two_pow 1024 (by decide)) hx⟩

theorem two_pow_le_ten_pow (hk : k ≤ 1200) : (2 : ℚ) ^ k ≤ 10 ^ 400 := by
  calc (2 : ℚ) ^ k ≤ 2 ^ (3 * 400) := pow_le_pow_right₀ (by norm_num) hk
    _ = 8 ^ 400 := by rw [pow_mul]; norm_num
    _ ≤ 10 ^ 400 := pow_le_pow_left₀ (by norm_num) (by norm_num) 400

theorem nearestBinary64_of_places (hhigh : n < 10 ^ len) (hk : len + 400 ≤ k) :
    NearestBinary64 (n / 10 ^ k) 0 := by
  refine nearestBinary64_zero (by positivity) ?_
  have hn : (n : ℚ) ≤ 10 ^ len := by exact_mod_cast hhigh.le
  rw [div_mul_eq_mul_div, div_le_one (by positivity)]
  calc (n : ℚ) * 2 ^ 1075 ≤ 10 ^ len * 10 ^ 400 :=
        mul_le_mul hn (two_pow_le_ten_pow (by decide)) (by positivity) (by positivity)
    _ = 10 ^ (len + 400) := (pow_add ..).symm
    _ ≤ 10 ^ k := pow_le_pow_right₀ (by norm_num) hk

theorem two_pow_le_of_digits (hlow : 10 ^ (len - 1) ≤ n) (hk : k + 400 < len) :
    (2 : ℚ) ^ 1024 ≤ n / 10 ^ k := by
  rw [le_div_iff₀ (by positivity)]
  calc (2 : ℚ) ^ 1024 * 10 ^ k ≤ 10 ^ 400 * 10 ^ k :=
        mul_le_mul_of_nonneg_right (two_pow_le_ten_pow (by decide)) (by positivity)
    _ = 10 ^ (400 + k) := (pow_add ..).symm
    _ ≤ 10 ^ (len - 1) := pow_le_pow_right₀ (by norm_num) (by omega)
    _ ≤ n := by exact_mod_cast hlow

theorem ten_pow_le_of_length (hn : 0 < n) : 10 ^ (n.repr.length - 1) ≤ n := by
  rcases Nat.eq_zero_or_pos (n.repr.length - 1) with hone | hmore
  · rw [hone]
    exact hn
  · by_contra hlt
    have := (Nat.length_repr_le_iff hmore).2 (Nat.lt_of_not_le hlt)
    omega

end cutoffs

/-- Decimal digits over a power of ten are read as the nearest binary64 number to the quotient. -/
theorem holds_nearestFloat (n k : ℕ) :
    ∃ v, NearestBinary64 (n / 10 ^ k) v ∧ Holds (ofFloat (Decimal.nearestFloat n (-(k : ℤ)))) v := by
  have hzero : Holds (ofFloat 0.0) 0 := by
    rw [ofFloat_zero]
    change (0 : ℚ) = _
    simp
  rcases Nat.eq_zero_or_pos n with rfl | hn
  · refine ⟨0, by simpa using nearestBinary64_zero le_rfl (by norm_num), ?_⟩
    rwa [Decimal.nearestFloat, if_pos rfl]
  · obtain ⟨len, hlen⟩ : ∃ len, len = n.repr.length := ⟨_, rfl⟩
    have hlow : 10 ^ (len - 1) ≤ n := hlen ▸ ten_pow_le_of_length hn
    have hhigh : n < 10 ^ len :=
      (Nat.length_repr_le_iff (hlen ▸ Nat.length_repr_pos)).1 hlen.ge
    have hlog : len - 1 ≤ n.log2 :=
      (Nat.le_log2 hn.ne').2 ((Nat.pow_le_pow_left (by decide) _).trans hlow)
    rw [Decimal.nearestFloat, if_neg hn.ne', show (toString n).length = len from hlen.symm]
    simp only
    split
    · exact ⟨0, nearestBinary64_of_places hhigh (by omega), hzero⟩
    · split
      · rw [ofFloat_infinite]
        exact holds_infinite (two_pow_le_of_digits hlow (by omega))
      · rcases Nat.eq_zero_or_pos k with rfl | hk
        · simpa using holds_ofScientific_zero hn
        · have hnegative : decide (-(k : ℤ) < 0) = true := decide_eq_true (by omega)
          rw [hnegative, Int.natAbs_neg, Int.natAbs_natCast]
          exact holds_ofScientific_pos hn hk (by omega)

end TrackingScore.Binary64

namespace TrackingScore.Decimal

variable (p : Plain)

theorem toNat_of_mem_unsigned {c : Char} (h : c ∈ p.unsigned) : c.toNat < 58 := by
  rcases p.mem_unsigned h with hdigit | rfl
  · exact Nat.lt_succ_of_le (toNat_of_isDigit hdigit).2
  · decide

theorem toLower_of_toNat_lt {c : Char} (h : c.toNat < 58) : c.toLower = c := by
  have hnot : ¬(c.val ≥ 'A'.val ∧ c.val ≤ 'Z'.val) := by
    rintro ⟨hlow, -⟩
    have hlow' : 65 ≤ c.toNat := UInt32.le_iff_toNat_le.1 hlow
    omega
  rw [Char.toLower, dif_neg hnot]

theorem ne_name_of_unsigned {name : String} (hname : ∃ c ∈ name.toList, 58 ≤ c.toNat) :
    String.ofList (p.unsigned.map Char.toLower) ≠ name := by
  rintro rfl
  obtain ⟨c, hc, hletter⟩ := hname
  rw [String.toList_ofList] at hc
  obtain ⟨d, hd, rfl⟩ := List.mem_map.1 hc
  have hlt := toNat_of_mem_unsigned p hd
  rw [toLower_of_toNat_lt hlt] at hletter
  omega

theorem parts?_unsigned : parts? p.unsigned = some ⟨p.digits, -(p.places.length : ℤ)⟩ := by
  have hempty := p.isEmpty_eq_false
  cases hfraction : p.fraction with
  | none =>
    have hunsigned : p.unsigned = p.whole := by rw [Plain.unsigned, hfraction]
    have hplaces : p.places = [] := by rw [Plain.places, hfraction]; rfl
    have hwhole : p.whole.takeWhile isDigit = p.whole := List.takeWhile_eq_self_iff.2 p.isDigit_whole
    have hrest : p.whole.dropWhile isDigit = [] := List.dropWhile_eq_nil_iff.2 p.isDigit_whole
    rw [hplaces] at hempty
    simp only [parts?, hunsigned, hwhole, hrest, hempty, Plain.digits, hplaces]
    rfl
  | some places =>
    have hunsigned : p.unsigned = p.whole ++ '.' :: places := by rw [Plain.unsigned, hfraction]
    have hplaces : p.places = places := by rw [Plain.places, hfraction]; rfl
    have hdigits : ∀ c ∈ places, isDigit c = true := hplaces ▸ p.isDigit_places
    have hpoint : ¬isDigit '.' = true := by decide
    have hwhole : (p.whole ++ '.' :: places).takeWhile isDigit = p.whole := by
      rw [List.takeWhile_append_of_pos p.isDigit_whole, List.takeWhile_cons_of_neg hpoint,
        List.append_nil]
    have hrest : (p.whole ++ '.' :: places).dropWhile isDigit = '.' :: places := by
      rw [List.dropWhile_append_of_pos p.isDigit_whole, List.dropWhile_cons_of_neg hpoint]
    have hfront : places.takeWhile isDigit = places := List.takeWhile_eq_self_iff.2 hdigits
    have hend : places.dropWhile isDigit = [] := List.dropWhile_eq_nil_iff.2 hdigits
    rw [hplaces] at hempty
    simp only [parts?, hunsigned, hwhole, hrest, hfront, hend, hempty, Plain.digits, hplaces]
    simp [exponentPart]

theorem readMagnitude_unsigned :
    readMagnitude p.unsigned = some (nearestFloat (value p.digits) (-(p.places.length : ℤ))) := by
  unfold readMagnitude
  split
  · rename_i h
    exact absurd h (ne_name_of_unsigned p ⟨'i', by decide, by decide⟩)
  · rename_i h
    exact absurd h (ne_name_of_unsigned p ⟨'i', by decide, by decide⟩)
  · rename_i h
    exact absurd h (ne_name_of_unsigned p ⟨'n', by decide, by decide⟩)
  · rw [parts?_unsigned]
    rfl

/-- The text is read as the nearest binary64 number to the number it stands for. -/
theorem holds_readFloat :
    ∃ x v, readFloat p.text = some x ∧ NearestBinary64 p.toRat v ∧
      (Binary64.ofFloat x).Holds v := by
  obtain ⟨v, hv, hholds⟩ := Binary64.holds_nearestFloat (value p.digits) p.places.length
  rw [← p.magnitude_eq] at hv
  have hread := readMagnitude_unsigned p
  cases hsign : p.sign with
  | none =>
    refine ⟨_, v, ?_, by rwa [Plain.toRat, hsign], hholds⟩
    rw [p.text_of_none hsign, ← hread]
    unfold readFloat
    split
    · rename_i hminus
      exact absurd hminus (p.unsigned_ne_cons (by decide) _)
    · rename_i hplus
      exact absurd hplus (p.unsigned_ne_cons (by decide) _)
    · rfl
  | plus =>
    exact ⟨_, v, by rw [p.text_of_plus hsign]; exact hread, by rwa [Plain.toRat, hsign], hholds⟩
  | minus =>
    refine ⟨_, -v, ?_, by rw [Plain.toRat, hsign]; exact hv.neg, Binary64.holds_neg hholds⟩
    rw [p.text_of_minus hsign]
    exact congrArg (Option.map (- ·)) hread

end TrackingScore.Decimal
