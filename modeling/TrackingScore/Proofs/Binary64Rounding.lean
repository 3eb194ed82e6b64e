import Mathlib
import TrackingScore.Binary64
import TrackingScore.Proofs.NearestBinary64

/-!
Words of 64 bits as the numbers they stand for, and the rounding of products and quotients. A
significand with a round bit and a sticky bit knows enough of an exact value to round it; rounded, it
is the nearest binary64 number.
-/

namespace TrackingScore.Binary64

open Float.Model Float.Model.UnpackedFloat

/-- The value of a finite word. An infinite one stands for any value out of range. -/
def Holds : Binary64 → ℚ → Prop
  | .notANumber, _ => False
  | .infinite negative, v => 2 ^ 1024 ≤ if negative then -v else v
  | .finite negative m e, v => v = if negative then -((m : ℚ) * 2 ^ e) else (m : ℚ) * 2 ^ e

def ofUnpacked : UnpackedFloat → Binary64
  | .notANumber => .notANumber
  | .infinity sign => .infinite (sign == .negative)
  | .zero sign => .finite (sign == .negative) 0 (-1074)
  | .finite sign m e _ => .finite (sign == .negative) m e

section words

variable (b : BitVec Format.binary64.numBits)

theorem toNat_unpackMantissa : (unpackMantissa b).toNat = b.toNat % 2 ^ 52 := by
  simp [unpackMantissa]

theorem toNat_unpackExponent : (unpackExponent b).toNat = b.toNat / 2 ^ 52 % 2 ^ 11 := by
  simp [unpackExponent, Nat.shiftRight_eq_div_pow]

theorem toNat_unpackSign : (unpackSign b).toNat = b.toNat / 2 ^ 63 % 2 := by
  simp [unpackSign, Nat.shiftRight_eq_div_pow]

end words

theorem negative_ofBitVec (b : BitVec Format.binary64.numBits) :
    (Sign.ofBitVec (unpackSign b) == .negative) = decide (0x8000000000000000 ≤ b.toNat) := by
  have hbit := toNat_unpackSign b
  have hlt := b.isLt
  have hzero : unpackSign b = 0#1 ↔ b.toNat < 0x8000000000000000 := by
    rw [← BitVec.toNat_inj, hbit]
    change b.toNat < 2 ^ 64 at hlt
    change b.toNat / 2 ^ 63 % 2 = 0 ↔ _
    omega
  rw [Sign.ofBitVec]
  split
  · rename_i h
    exact (decide_eq_false (Nat.not_le.2 (hzero.1 h))).symm
  · rename_i h
    exact (decide_eq_true (Nat.not_lt.1 (mt hzero.2 h))).symm

theorem ofFloat_eq (x : Float) : ofFloat x = ofUnpacked x.toModel.unpack := by
  obtain ⟨b, hb⟩ : ∃ b : BitVec Format.binary64.numBits, b = x.toModel.toBits.toBitVec :=
    ⟨_, rfl⟩
  have hbits : x.toBits.toNat = b.toNat := by rw [hb]; rfl
  have hinf : unpackExponent b = -1#_ ↔ b.toNat / 2 ^ 52 % 2048 = 2047 := by
    rw [← BitVec.toNat_inj, toNat_unpackExponent]
    rfl
  have hzero : unpackExponent b = 0#_ ↔ b.toNat / 2 ^ 52 % 2048 = 0 := by
    rw [← BitVec.toNat_inj, toNat_unpackExponent]
    rfl
  have hmantissa : unpackMantissa b = 0#_ ↔ b.toNat % 2 ^ 52 = 0 := by
    rw [← BitVec.toNat_inj, toNat_unpackMantissa]
    rfl
  have hnormal : (1#1 ++ unpackMantissa b).toNat = b.toNat % 2 ^ 52 + 2 ^ 52 := by
    rw [BitVec.toNat_append, ← Nat.shiftLeft_add_eq_or_of_lt (unpackMantissa b).isLt,
      toNat_unpackMantissa, Nat.add_comm]
    rfl
  rw [ofFloat, ofBits, Float.Model.unpack, UnpackedFloat.unpack, ← hb, hbits,
    show hiddenBit = 2 ^ 52 from rfl]
  simp only [hinf, hzero, hmantissa]
  by_cases hspecial : b.toNat / 2 ^ 52 % 2048 = 2047
  · by_cases hfraction : b.toNat % 2 ^ 52 = 0
    · simp only [if_pos hspecial, if_pos hfraction, ofUnpacked, negative_ofBitVec]
    · simp only [if_pos hspecial, if_neg hfraction, ofUnpacked]
  · by_cases hsub : b.toNat / 2 ^ 52 % 2048 = 0
    · have hexponent : (unpackExponent b).toNat = 0 := (toNat_unpackExponent b).trans hsub
      by_cases hfraction : b.toNat % 2 ^ 52 = 0
      · simp only [if_neg hspecial, if_pos hsub, dif_pos hfraction, ofUnpacked, negative_ofBitVec]
        rw [hfraction]
      · simp only [if_neg hspecial, if_pos hsub, dif_neg hfraction, ofUnpacked, negative_ofBitVec,
          toNat_unpackMantissa, hexponent]
        rfl
    · simp only [if_neg hspecial, if_neg hsub, ofUnpacked, negative_ofBitVec, hnormal,
        toNat_unpackExponent]
      rfl

section packed

variable (sign : Sign) {m : ℕ} {e : ℤ}

theorem ofBitVec_unpackSign (exponent : BitVec 11) (mantissa : BitVec 52) :
    Sign.ofBitVec (unpackSign (packComponents Format.binary64 sign exponent mantissa)) = sign := by
  have hbits : unpackSign (packComponents Format.binary64 sign exponent mantissa) =
      sign.toBitVec := by
    simp only [unpackSign, packComponents, BitVec.extractLsb]
    ext i hi
    grind
  rw [hbits]
  cases sign <;> rfl

theorem unpack_infinite :
    (Float.Model.pack (.infinity sign)).unpack = .infinity sign := by
  change UnpackedFloat.unpack Format.binary64 (packComponents Format.binary64 sign _ _) = _
  simp only [UnpackedFloat.unpack, unpackExponent_packComponents, unpackMantissa_packComponents,
    ofBitVec_unpackSign, if_true]
  rfl

theorem unpack_zero : (Float.Model.pack (.zero sign)).unpack = .zero sign := by
  cases sign <;> rfl

theorem unpack_normal {biased : ℕ} (hbiased : 0 < biased) (hlt : biased < 2047)
    (hfull : 2 ^ 52 ≤ m) (hm : m < 2 ^ 53) :
    UnpackedFloat.unpack Format.binary64 (packComponents Format.binary64 sign (BitVec.ofNat 11 biased)
        (BitVec.ofNat 52 m)) =
      .finite sign m ((biased : ℤ) - 1075) (by omega) := by
  have hexponent : (BitVec.ofNat 11 biased).toNat = biased := by
    rw [BitVec.toNat_ofNat]
    omega
  have hinf : BitVec.ofNat 11 biased ≠ -1#11 := by
    rw [Ne, ← BitVec.toNat_inj, hexponent]
    change biased ≠ 2047
    omega
  have hzero : BitVec.ofNat 11 biased ≠ 0#11 := by
    rw [Ne, ← BitVec.toNat_inj, hexponent]
    exact hbiased.ne'
  have hmantissa : (1#1 ++ BitVec.ofNat 52 m).toNat = m := by
    rw [BitVec.toNat_append, ← Nat.shiftLeft_add_eq_or_of_lt (BitVec.ofNat 52 m).isLt,
      BitVec.toNat_ofNat]
    change 2 ^ 52 + m % 2 ^ 52 = m
    omega
  simp only [UnpackedFloat.unpack, unpackExponent_packComponents, unpackMantissa_packComponents,
    ofBitVec_unpackSign, if_neg hinf, if_neg hzero, hexponent, hmantissa]
  exact congrArg (fun e => UnpackedFloat.finite sign m e _) rfl

theorem unpack_subnormal (hpos : 0 < m) (hm : m < 2 ^ 52) :
    UnpackedFloat.unpack Format.binary64 (packComponents Format.binary64 sign (0#11)
        (BitVec.ofNat 52 m)) =
      .finite sign m (-1074) hpos := by
  have hmantissa : (BitVec.ofNat 52 m).toNat = m := by
    rw [BitVec.toNat_ofNat, Nat.mod_eq_of_lt hm]
  have hne : BitVec.ofNat 52 m ≠ 0#52 := by
    rw [Ne, ← BitVec.toNat_inj, hmantissa]
    exact hpos.ne'
  simp only [UnpackedFloat.unpack, unpackExponent_packComponents, unpackMantissa_packComponents,
    ofBitVec_unpackSign, if_neg (show 0#11 ≠ -1#11 by decide), dif_neg hne, hmantissa, if_true]
  exact congrArg (fun e => UnpackedFloat.finite sign m e hpos) rfl

theorem unpack_pack (hpos : 0 < m) (hm : m < 2 ^ 53) (he : -1074 ≤ e)
    (hfull : 2 ^ 52 ≤ m ∨ e = -1074) :
    (Float.Model.pack (.finite sign m e hpos)).unpack =
      if 971 < e then .infinity sign else .finite sign m e hpos := by
  change UnpackedFloat.unpack Format.binary64 (UnpackedFloat.pack Format.binary64 _) = _
  have hbiased : e + Format.binary64.exponentBias + (52 : ℕ) = e + 1075 := by
    change e + 1023 + 52 = e + 1075
    omega
  have hlog : m.log2 + 1 = Format.binary64.mantissaBits ↔ 2 ^ 52 ≤ m := by
    change m.log2 + 1 = 53 ↔ _
    rw [Nat.add_left_inj, Nat.log2_eq_iff hpos.ne']
    exact and_iff_left hm
  have hover : 2 ^ Format.binary64.exponentBits ≤ (e + 1075).toNat + 1 ↔ 971 < e := by
    change 2048 ≤ (e + 1075).toNat + 1 ↔ 971 < e
    omega
  rw [UnpackedFloat.pack, hbiased]
  simp only [hlog, hover]
  by_cases hlarge : 971 < e
  · rw [if_pos hlarge, if_pos hlarge]
    exact unpack_infinite sign
  · rw [if_neg hlarge, if_neg hlarge]
    by_cases hnormal : 2 ^ 52 ≤ m
    · rw [if_pos hnormal, unpack_normal sign (by omega) (by omega) hnormal hm]
      congr 1
      omega
    · obtain rfl := hfull.resolve_left hnormal
      rw [if_neg hnormal]
      exact unpack_subnormal sign hpos (by omega)

end packed

section residue

/-- The exact value that a significand and its residual bits stand for, as far as they tell it. -/
def Represents (em : ExtendedMantissa) (y : ℚ) : Prop :=
  match em.roundBit, em.stickyBit with
  | false, false => y = em.mantissa
  | false, true => em.mantissa < y ∧ y < em.mantissa + 1 / 2
  | true, false => y = em.mantissa + 1 / 2
  | true, true => em.mantissa + 1 / 2 < y ∧ y < em.mantissa + 1

variable {em : ExtendedMantissa} {y : ℚ}

theorem Represents.bounds (h : Represents em y) : em.mantissa ≤ y ∧ y < em.mantissa + 1 := by
  obtain ⟨m, round, sticky⟩ := em
  cases round <;> cases sticky <;> simp only [Represents] at h <;> constructor <;> linarith

theorem Represents.nearestEven (h : Represents em y) : NearestEven y em.roundedMantissa := by
  obtain ⟨m, round, sticky⟩ := em
  cases round <;> cases sticky <;> simp only [Represents] at h
  · change NearestEven y m
    rw [h]
    exact ⟨by norm_num, by norm_num⟩
  · change NearestEven y m
    rw [NearestEven, abs_of_nonneg (by linarith)]
    exact ⟨by linarith, fun heq => by linarith⟩
  · change NearestEven y (m + m % 2 : ℕ)
    rcases Nat.mod_two_eq_zero_or_one m with h2 | h2
    · rw [h2, Nat.add_zero, NearestEven, h]
      exact ⟨by norm_num, fun _ => h2⟩
    · rw [h2, NearestEven, h]
      push_cast
      exact ⟨by norm_num, fun _ => by omega⟩
  · change NearestEven y (m + 1 : ℕ)
    rw [NearestEven, abs_of_nonpos (by push_cast; linarith)]
    push_cast
    exact ⟨by linarith, fun heq => by linarith⟩

theorem Represents.shiftRightOne (h : Represents em y) : Represents em.shiftRightOne (y / 2) := by
  obtain ⟨m, round, sticky⟩ := em
  have hm : ((m / 2 : ℕ) : ℚ) * 2 + (m % 2 : ℕ) = m := by exact_mod_cast Nat.div_add_mod' m 2
  rcases Nat.mod_two_eq_zero_or_one m with h2 | h2 <;> rw [h2] at hm <;>
    cases round <;> cases sticky <;>
    simp only [Represents, ExtendedMantissa.shiftRightOne, h2, Nat.reduceBNe, Bool.or_false,
      Bool.or_true, Bool.or_self] at h ⊢ <;>
    push_cast at hm <;> first | linarith | (constructor <;> linarith)

theorem Represents.shiftRight (h : Represents em y) (k : ℕ) :
    Represents (em >>> k) (y / 2 ^ k) := by
  change Represents (k.repeat ExtendedMantissa.shiftRightOne em) _
  induction k with
  | zero => simpa [Nat.repeat] using h
  | succ k ih =>
    rw [Nat.repeat, pow_succ, ← div_div]
    exact ih.shiftRightOne

theorem represents_exact (m : ℕ) :
    Represents (ExtendedMantissa.ofMantissaAndAccuracy m .exact) m := rfl

theorem represents_fraction (n : ℕ) {d : ℕ} (hd : 0 < d) :
    Represents (ExtendedMantissa.ofMantissaAndAccuracy (n / d) (accuracyOfFraction (n % d) d))
      (n / d) := by
  have hdq : (0 : ℚ) < d := by exact_mod_cast hd
  have hsum : (n : ℚ) / d = (n / d : ℕ) + (n % d : ℕ) / d := by
    rw [eq_comm, ← eq_sub_iff_add_eq', div_eq_iff hdq.ne', sub_mul, div_mul_cancel₀ _ hdq.ne']
    have := Nat.div_add_mod' n d
    rw [eq_sub_iff_add_eq']
    exact_mod_cast this
  have hlt : ((n % d : ℕ) : ℚ) / d < 1 := by
    rw [div_lt_one hdq]
    exact_mod_cast Nat.mod_lt n hd
  rw [hsum, accuracyOfFraction]
  split
  · rename_i hzero
    rw [hzero, Nat.cast_zero, zero_div, add_zero]
    exact represents_exact _
  · rename_i hne
    have hpos : (0 : ℚ) < (n % d : ℕ) / d := div_pos (by exact_mod_cast Nat.pos_of_ne_zero hne) hdq
    have hhalf : ((n % d : ℕ) : ℚ) / d - 1 / 2 = ((2 * (n % d) : ℕ) - (d : ℚ)) / (2 * d) := by
      push_cast
      field_simp
    cases hcompare : compare (2 * (n % d)) d with
    | lt =>
      have hneg : ((2 * (n % d) : ℕ) : ℚ) < d := by exact_mod_cast Nat.compare_eq_lt.1 hcompare
      have : ((n % d : ℕ) : ℚ) / d - 1 / 2 < 0 := by
        rw [hhalf]
        exact div_neg_of_neg_of_pos (by linarith) (by positivity)
      exact ⟨show ((n / d : ℕ) : ℚ) < _ by linarith,
        show _ < ((n / d : ℕ) : ℚ) + 1 / 2 by linarith⟩
    | eq =>
      have heq : ((2 * (n % d) : ℕ) : ℚ) = d := by exact_mod_cast Nat.compare_eq_eq.1 hcompare
      have : ((n % d : ℕ) : ℚ) / d - 1 / 2 = 0 := by rw [hhalf, heq, sub_self, zero_div]
      change _ = ((n / d : ℕ) : ℚ) + 1 / 2
      linarith
    | gt =>
      have hbig : (d : ℚ) < (2 * (n % d) : ℕ) := by exact_mod_cast Nat.compare_eq_gt.1 hcompare
      have : 0 < ((n % d : ℕ) : ℚ) / d - 1 / 2 := by
        rw [hhalf]
        exact div_pos (by linarith) (by positivity)
      exact ⟨show ((n / d : ℕ) : ℚ) + 1 / 2 < _ by linarith,
        show _ < ((n / d : ℕ) : ℚ) + 1 by linarith⟩

end residue

section rounding

variable {m n : ℕ} {e t : ℤ} {y : ℚ}

theorem targetExponent_eq (m : ℕ) (e : ℤ) :
    Format.binary64.targetExponent (totalExponent m e) = max ((m.log2 : ℤ) + 1 + e - 53) (-1074) :=
  rfl

theorem shift_of_lt (hn : n < 2 ^ 53) (ht : -1074 ≤ t) :
    shiftToTargetExponent Format.binary64 n t .exact = (⟨n, false, false⟩, t) := by
  have hlog : n.log2 ≤ 52 := by
    rcases Nat.eq_zero_or_pos n with rfl | hpos
    · simp
    · exact Nat.lt_succ_iff.1 ((Nat.log2_lt hpos.ne').2 hn)
  have hshift : (Format.binary64.targetExponent (totalExponent n t) - t).toNat = 0 := by
    rw [targetExponent_eq]
    omega
  rw [shiftToTargetExponent, shiftToExponent, hshift]
  simp only [Nat.cast_zero, add_zero]
  rfl

theorem shift_of_eq (ht : -1074 ≤ t) :
    shiftToTargetExponent Format.binary64 (2 ^ 53) t .exact = (⟨2 ^ 52, false, false⟩, t + 1) := by
  have hshift : (Format.binary64.targetExponent (totalExponent (2 ^ 53) t) - t).toNat = 1 := by
    rw [targetExponent_eq, Nat.log2_two_pow]
    omega
  rw [shiftToTargetExponent, shiftToExponent, hshift]
  rfl

theorem roundWithAccuracy_eq (sign : Sign) (accuracy : Accuracy) {em : ExtendedMantissa}
    (hshift : shiftToTargetExponent Format.binary64 m e accuracy = (em, t))
    (hn : em.roundedMantissa = n) (hle : n ≤ 2 ^ 53) (ht : -1074 ≤ t) :
    roundWithAccuracy Format.binary64 sign m e accuracy =
      if hzero : n = 0 then .zero sign
      else if n < 2 ^ 53 then .finite sign n t (Nat.pos_of_ne_zero hzero)
      else .finite sign (2 ^ 52) (t + 1) (by decide) := by
  rw [roundWithAccuracy, hshift]
  rcases Nat.lt_or_eq_of_le hle with hlt | rfl
  · simp only [hn, shift_of_lt hlt ht]
    by_cases hzero : n = 0
    · simp only [dif_pos hzero]
    · simp only [dif_neg hzero, if_pos hlt]
  · simp only [hn, shift_of_eq ht]
    rfl

theorem two_zpow_split (a b : ℤ) : (2 : ℚ) ^ (a + b) = 2 ^ a * 2 ^ b := zpow_add₀ two_ne_zero a b

theorem out_of_range (hn : 2 ^ 52 ≤ n) (ht : 972 ≤ t) : (2 : ℚ) ^ 1024 ≤ (n : ℚ) * 2 ^ t := by
  have hn' : (2 : ℚ) ^ 52 ≤ n := by exact_mod_cast hn
  have ht' : (2 : ℚ) ^ (972 : ℤ) ≤ 2 ^ t := zpow_le_zpow_right₀ (by norm_num) ht
  calc (2 : ℚ) ^ 1024 = 2 ^ 52 * 2 ^ (972 : ℤ) := by
        rw [show (972 : ℤ) = (972 : ℕ) from rfl, zpow_natCast, ← pow_add]
    _ ≤ (n : ℚ) * 2 ^ t := mul_le_mul hn' ht' (by positivity) (by positivity)

theorem holds_finite (hpos : 0 < n) (hn : n < 2 ^ 53) (ht : -1074 ≤ t)
    (hfull : 2 ^ 52 ≤ n ∨ t = -1074) :
    Holds (ofUnpacked (Float.Model.pack (.finite .positive n t hpos)).unpack) (n * 2 ^ t) := by
  rw [unpack_pack .positive hpos hn ht hfull]
  split
  · rename_i hlarge
    exact out_of_range (hfull.resolve_right (by omega)) (by omega)
  · rfl

/-- What is shifted to the grid of its magnitude and rounded there holds the nearest binary64
number. -/
theorem holds_roundWithAccuracy (accuracy : Accuracy)
    (h : Represents (ExtendedMantissa.ofMantissaAndAccuracy m accuracy) y)
    (he : e ≤ Format.binary64.targetExponent (totalExponent m e)) :
    ∃ v, NearestBinary64 (y * 2 ^ e) v ∧
      Holds (ofUnpacked (Float.Model.pack
        (roundWithAccuracy Format.binary64 .positive m e accuracy)).unpack) v := by
  have hm : (ExtendedMantissa.ofMantissaAndAccuracy m accuracy).mantissa = m := by
    cases accuracy with
    | exact => rfl
    | inexact o => cases o <;> rfl
  have hbounds := h.bounds
  rw [hm] at hbounds
  obtain ⟨t, ht⟩ : ∃ t, t = Format.binary64.targetExponent (totalExponent m e) := ⟨_, rfl⟩
  obtain ⟨k, hk⟩ : ∃ k : ℕ, k = (t - e).toNat := ⟨_, rfl⟩
  have hek : e + k = t := by omega
  rw [targetExponent_eq] at ht
  have hz : y * 2 ^ e / 2 ^ t = y / 2 ^ k := by
    rw [← hek, two_zpow_split, zpow_natCast, mul_comm, mul_div_mul_left _ _ (by positivity)]
  have hlow : t = -1074 ∨ 2 ^ 52 ≤ y * 2 ^ e / 2 ^ t := by
    by_cases hsub : t = -1074
    · exact .inl hsub
    · right
      have hne : m ≠ 0 := by
        rintro rfl
        rw [Nat.log2_zero] at ht
        omega
      have hlog : ((2 ^ m.log2 : ℕ) : ℚ) ≤ m := by exact_mod_cast Nat.log2_self_le hne
      rw [hz, le_div_iff₀ (by positivity), ← pow_add, show 52 + k = m.log2 by omega]
      push_cast at hlog
      exact hlog.trans hbounds.1
  have hhigh : y * 2 ^ e / 2 ^ t < 2 ^ 53 := by
    have hlog : ((m + 1 : ℕ) : ℚ) ≤ (2 ^ (m.log2 + 1) : ℕ) := by
      exact_mod_cast Nat.lt_log2_self
    have hexp : (2 : ℚ) ^ (m.log2 + 1) ≤ 2 ^ (53 + k) :=
      pow_le_pow_right₀ (by norm_num) (by omega)
    rw [hz, div_lt_iff₀ (by positivity), ← pow_add]
    push_cast at hlog
    exact hbounds.2.trans_le (hlog.trans hexp)
  obtain ⟨em, hem⟩ : ∃ em, em = ExtendedMantissa.ofMantissaAndAccuracy m accuracy >>> k := ⟨_, rfl⟩
  have hshift : shiftToTargetExponent Format.binary64 m e accuracy = (em, t) := by
    rw [shiftToTargetExponent, shiftToExponent, targetExponent_eq, ← ht, ← hk, ← hem, hek]
  have hn : NearestEven (y * 2 ^ e / 2 ^ t) em.roundedMantissa := by
    rw [hz, hem]
    exact (h.shiftRight k).nearestEven
  obtain ⟨n, hround⟩ : ∃ n, em.roundedMantissa = n := ⟨_, rfl⟩
  rw [hround] at hn
  have ht' : -1074 ≤ t := by omega
  have hfull : 2 ^ 52 ≤ n ∨ t = -1074 :=
    hlow.symm.imp_left fun h => NearestEven.le_of_natCast_le hn (by exact_mod_cast h)
  refine ⟨n * 2 ^ t, nearestBinary64_of_grid ht' hlow hhigh hn, ?_⟩
  have hle : n ≤ 2 ^ 53 := NearestEven.le_of_lt_natCast hn (by exact_mod_cast hhigh)
  rw [roundWithAccuracy_eq .positive accuracy hshift hround hle ht']
  split
  · rename_i hzero
    rw [unpack_zero, hzero]
    change _ = _
    simp
  · split
    · rename_i hpos hlt
      exact holds_finite (Nat.pos_of_ne_zero hpos) hlt ht' hfull
    · rename_i hpos hfar
      have hn53 : n = 2 ^ 53 := by omega
      have hvalue : (n : ℚ) * 2 ^ t = (2 ^ 52 : ℕ) * 2 ^ (t + 1) := by
        rw [hn53, zpow_add_one₀ two_ne_zero]
        push_cast
        ring
      rw [hvalue]
      exact holds_finite (by decide) (by decide) (by omega) (.inl le_rfl)

end rounding

section operations

variable {m m₁ m₂ : ℕ} (e₁ e₂ : ℤ)

theorem holds_mul (h₁ : 0 < m₁) (h₂ : 0 < m₂) (hfull : 2 ^ 52 ≤ m₁ * m₂) :
    ∃ v, NearestBinary64 (m₁ * 2 ^ e₁ * (m₂ * 2 ^ e₂)) v ∧
      Holds (ofUnpacked (Float.Model.pack (UnpackedFloat.mul Format.binary64
        (.finite .positive m₁ e₁ h₁) (.finite .positive m₂ e₂ h₂))).unpack) v := by
  have hlog : 52 ≤ (m₁ * m₂).log2 := (Nat.le_log2 (by positivity)).2 hfull
  have hvalue : (m₁ : ℚ) * 2 ^ e₁ * (m₂ * 2 ^ e₂) = (m₁ * m₂ : ℕ) * 2 ^ (e₁ + e₂) := by
    rw [two_zpow_split]
    push_cast
    ring
  rw [hvalue]
  exact holds_roundWithAccuracy .exact (represents_exact _) (by rw [targetExponent_eq]; omega)

theorem holds_div (h₁ : 0 < m₁) (h₂ : 0 < m₂) :
    ∃ v, NearestBinary64 (m₁ * 2 ^ e₁ / (m₂ * 2 ^ e₂)) v ∧
      Holds (ofUnpacked (Float.Model.pack (UnpackedFloat.div Format.binary64
        (.finite .positive m₁ e₁ h₁) (.finite .positive m₂ e₂ h₂))).unpack) v := by
  obtain ⟨t, ht⟩ : ∃ t, t = min (e₁ - e₂) (Format.binary64.targetExponent
    (totalExponent m₁ e₁ - totalExponent m₂ e₂)) := ⟨_, rfl⟩
  obtain ⟨k, hk⟩ : ∃ k : ℕ, k = (e₁ - e₂ - t).toNat := ⟨_, rfl⟩
  have hcore : divCore Format.binary64 m₁ e₁ m₂ e₂ =
      (m₁ * 2 ^ k / m₂, t, accuracyOfFraction (m₁ * 2 ^ k % m₂) m₂) := by
    rw [divCore, ← ht, ← hk, Nat.shiftLeft_eq]
  have htarget : t = min (e₁ - e₂)
      (max ((m₁.log2 : ℤ) + 1 + e₁ - (m₂.log2 + 1 + e₂) - 53) (-1074)) := ht
  have hfull : -1074 < t → 2 ^ 52 ≤ m₁ * 2 ^ k / m₂ := by
    intro hfine
    have hlow : 2 ^ m₁.log2 ≤ m₁ := Nat.log2_self_le h₁.ne'
    have hhigh : m₂ < 2 ^ (m₂.log2 + 1) := Nat.lt_log2_self
    rw [Nat.le_div_iff_mul_le h₂]
    calc 2 ^ 52 * m₂ ≤ 2 ^ 52 * 2 ^ (m₂.log2 + 1) := Nat.mul_le_mul_left _ hhigh.le
      _ = 2 ^ (52 + (m₂.log2 + 1)) := (Nat.pow_add ..).symm
      _ ≤ 2 ^ (m₁.log2 + k) := Nat.pow_le_pow_right (by decide) (by omega)
      _ = 2 ^ m₁.log2 * 2 ^ k := Nat.pow_add ..
      _ ≤ m₁ * 2 ^ k := Nat.mul_le_mul_right _ hlow
  have hvalue : (m₁ : ℚ) * 2 ^ e₁ / (m₂ * 2 ^ e₂) = (m₁ * 2 ^ k : ℕ) / m₂ * 2 ^ t := by
    have hexp : (2 : ℚ) ^ e₁ = 2 ^ k * 2 ^ t * 2 ^ e₂ := by
      rw [← zpow_natCast, ← two_zpow_split, ← two_zpow_split]
      congr 1
      omega
    rw [hexp]
    push_cast
    field_simp
  have hround := holds_roundWithAccuracy (e := t) _ (represents_fraction (m₁ * 2 ^ k) h₂) (by
    rw [targetExponent_eq]
    rcases le_or_gt t (-1074) with hsub | hfine
    · exact hsub.trans (le_max_right _ _)
    · have hlog : 52 ≤ (m₁ * 2 ^ k / m₂).log2 :=
        (Nat.le_log2 (by have := hfull hfine; omega)).2 (hfull hfine)
      omega)
  rw [hvalue]
  obtain ⟨v, hv, hholds⟩ := hround
  refine ⟨v, hv, ?_⟩
  rw [UnpackedFloat.div, hcore]
  exact hholds

theorem normalize_natCast (hpos : 0 < m) :
    UnpackedFloat.normalize Format.binary64 m 0 .positive =
      UnpackedFloat.round Format.binary64 .positive m 0 := by
  have hcompare : compare (m : ℤ) 0 = .gt := Int.compare_eq_gt.2 (by omega)
  rw [UnpackedFloat.normalize, hcompare]
  rfl

theorem unpack_toFloat (hpos : 0 < m) (hm : m < 2 ^ 53) :
    m.toUInt64.toFloat.toModel.unpack =
      .finite .positive (m * 2 ^ (52 - m.log2)) (-((52 - m.log2 : ℕ) : ℤ))
        (Nat.mul_pos hpos (Nat.two_pow_pos _)) := by
  have hlow : 2 ^ m.log2 ≤ m := Nat.log2_self_le hpos.ne'
  have hhigh : m < 2 ^ (m.log2 + 1) := Nat.lt_log2_self
  have hlog : m.log2 ≤ 52 := Nat.lt_succ_iff.1 ((Nat.log2_lt hpos.ne').2 hm)
  obtain ⟨k, hk⟩ : ∃ k, k = 52 - m.log2 := ⟨_, rfl⟩
  have hfull : 2 ^ 52 ≤ m * 2 ^ k := by
    calc 2 ^ 52 = 2 ^ m.log2 * 2 ^ k := by rw [← Nat.pow_add]; congr 1; omega
      _ ≤ m * 2 ^ k := Nat.mul_le_mul_right _ hlow
  have hlt : m * 2 ^ k < 2 ^ 53 := by
    calc m * 2 ^ k < 2 ^ (m.log2 + 1) * 2 ^ k := Nat.mul_lt_mul_of_pos_right hhigh (by positivity)
      _ = 2 ^ 53 := by rw [← Nat.pow_add]; congr 1; omega
  have hdecrease : decreaseExponent m 0 (Format.binary64.targetExponent (totalExponent m 0)) =
      (m * 2 ^ k, -(k : ℤ)) := by
    have hshift : (0 - Format.binary64.targetExponent (totalExponent m 0)).toNat = k := by
      rw [targetExponent_eq]
      omega
    rw [decreaseExponent, hshift, Nat.shiftLeft_eq, zero_sub]
  have hround : UnpackedFloat.round Format.binary64 .positive m 0 =
      .finite .positive (m * 2 ^ k) (-(k : ℤ)) (by positivity) := by
    have hkept := roundWithAccuracy_eq (n := m * 2 ^ k) .positive .exact
      (shift_of_lt hlt (show -1074 ≤ -(k : ℤ) by omega)) rfl hlt.le (by omega)
    rw [UnpackedFloat.round, hdecrease]
    exact hkept.trans (by rw [dif_neg (by positivity), if_pos hlt])
  have hword : m.toUInt64.toNat = m := UInt64.toNat_ofNat_of_lt (hm.trans (by decide))
  change (Float.Model.pack (UnpackedFloat.normalize Format.binary64 (m.toUInt64.toNat : ℤ) 0
    .positive)).unpack = _
  rw [hword, normalize_natCast hpos, hround, unpack_pack _ _ hlt (by omega) (.inl hfull),
    if_neg (by omega)]
  simp only [hk]

end operations

section signs

theorem ofBits_shape {word : UInt64} {negative : Bool} {m : ℕ} {e : ℤ}
    (h : ofBits word = .finite negative m e) :
    m < 2 ^ 53 ∧ -1074 ≤ e ∧ e ≤ 971 ∧ (2 ^ 52 ≤ m ∨ e = -1074) := by
  have hexponent : word.toNat / hiddenBit % 2048 < 2048 := Nat.mod_lt _ (by decide)
  have hfraction : word.toNat % hiddenBit < 2 ^ 52 := Nat.mod_lt _ (by decide)
  have hbit : hiddenBit = 2 ^ 52 := rfl
  rw [ofBits] at h
  split at h
  · split at h <;> cases h
  · split at h
    · cases h
      exact ⟨by omega, by omega, by omega, .inr rfl⟩
    · cases h
      exact ⟨by omega, by omega, by omega, .inl (by omega)⟩

theorem holds_neg {x : Float} {v : ℚ} (h : Holds (ofFloat x) v) : Holds (ofFloat (-x)) (-v) := by
  have hneg : ofFloat (-x) = ofUnpacked (Float.Model.pack x.toModel.unpack.neg).unpack :=
    ofFloat_eq (-x)
  rw [hneg]
  rw [ofFloat_eq] at h
  cases hx : x.toModel.unpack with
  | notANumber =>
    rw [hx] at h
    exact h.elim
  | infinity sign =>
    rw [hx] at h
    rw [UnpackedFloat.neg, unpack_infinite]
    cases sign
    · exact h
    · exact h.trans (neg_neg v).ge
  | zero sign =>
    rw [hx] at h
    rw [UnpackedFloat.neg, unpack_zero]
    cases sign
    · exact (congrArg Neg.neg h).trans (neg_neg _)
    · exact congrArg Neg.neg h
  | finite sign m e hpos =>
    have hshape := ofFloat_eq x
    rw [hx] at h hshape
    obtain ⟨hm, he, hlarge, hfull⟩ := ofBits_shape hshape
    rw [UnpackedFloat.neg, unpack_pack _ hpos hm he hfull, if_neg (by omega)]
    cases sign
    · exact (congrArg Neg.neg h).trans (neg_neg _)
    · exact congrArg Neg.neg h

end signs

end TrackingScore.Binary64
