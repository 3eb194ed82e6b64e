import TrackingScore.Proofs.DecimalSeconds
import TrackingScore.Proofs.TimestampText

/-!
Timestamps written as decimal seconds with nine places, and read back. Without a sign or with a minus
sign every time is read as it was written, the least word apart, whose magnitude is no word. A text
with a plus sign is read as a binary64 number of seconds: two roundings, which up to `2 ^ 22` seconds
still lead back to the time.
-/

namespace TrackingScore

theorem halfAway_of_near {w : ℚ} {n : ℤ} (h : |w - n| < 1 / 2) : halfAway w = n := by
  obtain ⟨hlow, hhigh⟩ := abs_lt.1 h
  rw [halfAway]
  split
  · exact Int.floor_eq_iff.2 ⟨by linarith, by linarith⟩
  · rw [neg_eq_iff_eq_neg]
    refine Int.floor_eq_iff.2 ?_
    push_cast
    exact ⟨by linarith, by linarith⟩

section nearest

variable {x v w : ℚ}

theorem NearestBinary64.abs_sub_le (hv : NearestBinary64 x v) (hw : Representable 53 w) :
    |x - v| ≤ |x - w| := by
  rcases eq_or_ne w v with rfl | hne
  · exact le_rfl
  · rcases hv.nearest w hw hne with hlt | ⟨heq, -⟩
    · exact hlt.le
    · exact heq.le

theorem NearestBinary64.ge_of_ge (hv : NearestBinary64 x v) (hw : Representable 53 w) (h : x ≤ w) :
    v ≤ w :=
  le_of_neg_le_neg (hv.neg.le_of_le hw.neg (neg_le_neg h))

/-- Up to `2 ^ 22` the numbers of the format lie no more than `2 ^ (-31)` apart. -/
theorem NearestBinary64.abs_sub_le_of_le (hv : NearestBinary64 x v) (hx : 0 ≤ x)
    (hle : x ≤ 2 ^ 22) : |x - v| ≤ 1 / 2 ^ 32 := by
  obtain ⟨k, hk⟩ := exists_nearestEven (x * 2 ^ 31) (by positivity)
  have hsize : k ≤ 2 ^ 53 := by
    have hclose := (abs_le.1 hk.1).1
    have hbound : (k : ℚ) < (2 ^ 53 + 1 : ℕ) := by
      push_cast
      linarith
    have : k < 2 ^ 53 + 1 := by exact_mod_cast hbound
    omega
  have hgrid : x - k * 2 ^ (-31 : ℤ) = (x * 2 ^ 31 - k) / 2 ^ 31 := by
    rw [zpow_neg, sub_div, mul_div_cancel_right₀ x (by positivity), div_eq_mul_inv]
    rfl
  calc |x - v| ≤ |x - k * 2 ^ (-31 : ℤ)| :=
        hv.abs_sub_le (representable_natCast_mul (by decide) hsize (by decide))
    _ = |x * 2 ^ 31 - k| / 2 ^ 31 := by
        rw [hgrid, abs_div, abs_of_pos (show (0 : ℚ) < 2 ^ 31 by positivity)]
    _ ≤ 1 / 2 / 2 ^ 31 := div_le_div_of_nonneg_right hk.1 (by positivity)
    _ = 1 / 2 ^ 32 := by norm_num

end nearest

namespace Binary64

theorem ofFloat_billion : ofFloat 1e9 = .finite false (5 ^ 9 * 2 ^ 32) (-23) := by decide +kernel

theorem exists_unpack_of_holds {x : Float} {v : ℚ} (hx : Holds (ofFloat x) v) (hpos : 0 < v)
    (hlt : v < 2 ^ 1024) :
    ∃ (m : ℕ) (e : ℤ) (hm : 0 < m),
      x.toModel.unpack = .finite .positive m e hm ∧ v = (m : ℚ) * 2 ^ e := by
  cases hb : ofFloat x with
  | notANumber =>
    rw [hb] at hx
    exact hx.elim
  | infinite negative =>
    rw [hb] at hx
    cases negative
    · exact absurd hx (not_le.2 hlt)
    · exact absurd (le_trans (by positivity) hx) (not_le.2 (neg_neg_of_pos hpos))
  | finite negative m e =>
    rw [hb] at hx
    have hnonneg : 0 ≤ (m : ℚ) * 2 ^ e := mul_nonneg m.cast_nonneg (zpow_pos two_pos e).le
    cases negative
    · have hvalue : v = (m : ℚ) * 2 ^ e := hx
      have hm : 0 < m := Nat.pos_of_ne_zero fun hzero => by simp [hvalue, hzero] at hpos
      exact ⟨m, e, hm, unpacked_of_finite hm ((ofFloat_eq x).symm.trans hb), hvalue⟩
    · have hvalue : v = -((m : ℚ) * 2 ^ e) := hx
      exact absurd (hvalue ▸ hpos) (not_lt.2 (neg_nonpos.2 hnonneg))

theorem holds_mul_billion {x : Float} {v : ℚ} (hx : Holds (ofFloat x) v) (hpos : 0 < v)
    (hlt : v < 2 ^ 1024) :
    ∃ w, NearestBinary64 (v * 10 ^ 9) w ∧ Holds (ofFloat (x * 1e9)) w := by
  obtain ⟨m, e, hm, hunpack, hvalue⟩ := exists_unpack_of_holds hx hpos hlt
  have hbillion : (1e9 : Float).toModel.unpack =
      .finite .positive (5 ^ 9 * 2 ^ 32) (-23) (by decide) :=
    unpacked_of_finite (by decide) ((ofFloat_eq 1e9).symm.trans ofFloat_billion)
  have hproduct := holds_mul e (-23) hm (show 0 < 5 ^ 9 * 2 ^ 32 by decide)
    ((show 2 ^ 52 ≤ 5 ^ 9 * 2 ^ 32 by decide).trans (Nat.le_mul_of_pos_left _ hm))
  have hten : ((5 ^ 9 * 2 ^ 32 : ℕ) : ℚ) * 2 ^ (-23 : ℤ) = 10 ^ 9 := powerOfTen_eq 9 32
  rw [hten, ← hvalue, ← hunpack, ← hbillion] at hproduct
  rw [ofFloat_eq]
  exact hproduct

end Binary64

namespace Table

open Decimal Scalar

section texts

def secondsPlain (sign : Sign) (n : ℕ) : Plain where
  sign := sign
  whole := Nat.toDigits 10 (n / 1000000000)
  fraction := some (nineDigits (n % 1000000000))
  isDigit_whole _ := isDigit_of_mem_toDigits
  isDigit_fraction _ := isDigit_of_mem_nineDigits
  digits_ne_nil := List.append_ne_nil_of_left_ne_nil Nat.toDigits_ne_nil _

variable {sign : Sign} {n : ℕ}

@[simp] theorem sign_secondsPlain : (secondsPlain sign n).sign = sign := rfl

theorem totalNanoseconds_secondsPlain : totalNanoseconds (secondsPlain sign n) = n := by
  change value (Nat.toDigits 10 (n / 1000000000)) * 1000000000 +
    nanoseconds (nineDigits (n % 1000000000)) = n
  rw [value_toDigits, nanoseconds_nineDigits (Nat.mod_lt _ (by decide)), Nat.div_add_mod']

theorem toRat_secondsPlain_plus : (secondsPlain .plus n).toRat = n / 10 ^ 9 := by
  have hlength : (nineDigits (n % 1000000000)).length = 9 :=
    length_nineDigits (Nat.mod_lt _ (by decide))
  have hmagnitude : (secondsPlain .plus n).magnitude =
      (n / 1000000000 : ℕ) + (n % 1000000000 : ℕ) / 10 ^ 9 := by
    change (value (Nat.toDigits 10 (n / 1000000000)) : ℚ) +
      value (nineDigits (n % 1000000000)) / 10 ^ (nineDigits (n % 1000000000)).length = _
    rw [value_toDigits, value_nineDigits, hlength]
  have hsplit : ((n / 1000000000 : ℕ) : ℚ) * 10 ^ 9 + (n % 1000000000 : ℕ) = n := by
    exact_mod_cast Nat.div_add_mod' n 1000000000
  rw [Plain.toRat, Sign.apply, sign_secondsPlain, if_neg (by decide), hmagnitude, ← hsplit]
  field_simp

def timeText (t : Int64) : List Char :=
  if t < 0 then '-' :: secondsText t.toInt.natAbs else secondsText t.toInt.natAbs

theorem timeText_eq (t : Int64) :
    timeText t = (secondsPlain (if t < 0 then .minus else .none) t.toInt.natAbs).text := by
  rw [timeText]
  split <;> rfl

theorem exists_timeText_of_nonneg {t : Int64} (h : 0 ≤ t) :
    ∃ n : ℕ, t.toInt = n ∧ timeText t = secondsText n := by
  have hnonneg : 0 ≤ t.toInt := Int64.le_iff_toInt_le.1 h
  exact ⟨t.toInt.natAbs, (Int.natAbs_of_nonneg hnonneg).symm, if_neg (Int64.not_lt.2 h)⟩

end texts

section reading

variable {α : Type} [Scalar α] (number : List Char → Option α) {t : Int64}

theorem readSeconds_timeText (h : t ≠ Int64.minValue) : readSeconds number (timeText t) = .ok t := by
  have hmin : t.toInt ≠ -2 ^ 63 := fun heq =>
    h (Int64.toInt_inj.1 (heq.trans Int64.toInt_minValue.symm))
  have hlow := Int64.le_toInt t
  have hhigh := Int64.toInt_lt t
  have hfits : totalNanoseconds (secondsPlain (if t < 0 then .minus else .none) t.toInt.natAbs) <
      2 ^ 63 := by
    rw [totalNanoseconds_secondsPlain]
    omega
  have hsign : (if t < 0 then Sign.minus else .none) ≠ .plus := by split <;> decide
  obtain ⟨u, hread, hvalue⟩ := readSeconds_of_lt number hsign hfits
  rw [timeText_eq, hread]
  congr 1
  refine Int64.toInt_inj.1 (hvalue.trans ?_)
  rw [towardZero_toRat, totalNanoseconds_secondsPlain, sign_secondsPlain]
  by_cases hneg : t < 0
  · have hlt : t.toInt < 0 := Int64.lt_iff_toInt_lt.1 hneg
    rw [if_pos hneg, if_pos rfl]
    omega
  · have hle : 0 ≤ t.toInt := Int64.le_iff_toInt_le.1 (Int64.not_lt.1 hneg)
    rw [if_neg hneg, if_neg (by decide)]
    omega

theorem readSeconds_timeText_minValue :
    ∃ fault, readSeconds number (timeText Int64.minValue) = .error (.ingestion fault) := by
  refine ⟨_, (congrArg (readSeconds number) (timeText_eq _)).trans
    (readSeconds_of_le number (by decide) ?_)⟩
  rw [totalNanoseconds_secondsPlain]
  decide

theorem readSeconds_text_of_plus {p : Plain} (hsign : p.sign = .plus) :
    readSeconds number p.text =
      ((number p.text).bind fun seconds => timestampOf? (seconds * 1e9)).elim
        (.error (.ingestion (.invalidTime (String.ofList p.text)))) .ok := by
  obtain ⟨⟨negative, whole, fraction⟩, hparts⟩ : ∃ ps, parts p.text = ps := ⟨_, rfl⟩
  have hwhole : ∃ rest, whole = '+' :: rest := by
    have htext := p.text_of_plus hsign
    rw [htext] at hparts
    exact ⟨_, (congrArg (fun ps => ps.2.1) hparts).symm⟩
  obtain ⟨rest, rfl⟩ := hwhole
  have hempty : (('+' :: rest).isEmpty && fraction.isEmpty) = false := rfl
  have hall : ('+' :: rest ++ fraction).all isDigit = false := rfl
  rw [readSeconds_eq number hparts, timeOf?, hempty, hall, if_neg Bool.false_ne_true,
    if_neg Bool.false_ne_true]

end reading

section rounded

variable {n : ℕ}

theorem answersWord_plus {x : Float} {w : ℚ} (hx : readFloat (secondsPlain .plus n).text = some x)
    (hproduct : (Binary64.ofFloat (x * 1e9)).Holds w) :
    AnswersWord (readSeconds readFloat ('+' :: secondsText n)) (halfAway w) := by
  have hread := readSeconds_text_of_plus readFloat (p := secondsPlain .plus n) rfl
  have htime : timestampOf? (x * 1e9) = int64? (halfAway w) := timestampOf?_eq hproduct
  rw [hx, Option.bind_some, htime] at hread
  change readSeconds readFloat ('+' :: secondsText n) = _ at hread
  rw [hread]
  exact answersWord_int64? _ _

theorem ofFloat_zero_mul_billion : Binary64.ofFloat (0.0 * 1e9) = .finite false 0 (-1074) := by
  decide +kernel

theorem readSeconds_plus (h : n < 2 ^ 63) :
    ∃ v w, NearestBinary64 (n / 10 ^ 9) v ∧ NearestBinary64 (v * 10 ^ 9) w ∧
      AnswersWord (readSeconds readFloat ('+' :: secondsText n)) (halfAway w) := by
  rcases Nat.eq_zero_or_pos n with rfl | hn
  · have hzero : NearestBinary64 0 0 :=
      Binary64.nearestBinary64_zero le_rfl ((zero_mul _).trans_le zero_le_one)
    have hproduct : (Binary64.ofFloat (0.0 * 1e9)).Holds 0 := by
      rw [ofFloat_zero_mul_billion]
      change (0 : ℚ) = _
      simp
    exact ⟨0, 0, by rwa [Nat.cast_zero, zero_div], by rwa [zero_mul], answersWord_plus rfl hproduct⟩
  · obtain ⟨x, v, hx, hv, hholds⟩ := holds_readFloat (secondsPlain .plus n)
    rw [toRat_secondsPlain_plus] at hv
    have hone : (1 : ℚ) ≤ n := by exact_mod_cast hn
    have hmost : (n : ℚ) ≤ 2 ^ 63 := by exact_mod_cast h.le
    have hlow : ((1 : ℕ) : ℚ) * 2 ^ (-30 : ℤ) ≤ v :=
      hv.le_of_le (representable_natCast_mul (by decide) (by decide) (by decide)) <| by
        rw [le_div_iff₀ (by positivity)]
        exact le_trans (by norm_num) hone
    have hhigh : v ≤ 2 ^ 34 := hv.ge_of_ge (representable_two_pow 34 (by decide)) <| by
      rw [div_le_iff₀ (by positivity)]
      exact hmost.trans (by norm_num)
    have hpow : (2 : ℚ) ^ 34 < 2 ^ 1024 := pow_lt_pow_right₀ (by norm_num) (by decide)
    obtain ⟨w, hw, hproduct⟩ := Binary64.holds_mul_billion hholds
      (lt_of_lt_of_le (by positivity) hlow) (hhigh.trans_lt hpow)
    exact ⟨v, w, hv, hw, answersWord_plus hx hproduct⟩

/-- The time itself is a number of the format, and the roundings leave it by less than a half. -/
theorem halfAway_of_two_roundings {v w : ℚ} (hn : n ≤ 2 ^ 22 * 10 ^ 9)
    (hv : NearestBinary64 (n / 10 ^ 9) v) (hw : NearestBinary64 (v * 10 ^ 9) w) :
    halfAway w = n := by
  have hmost : (n : ℚ) ≤ 2 ^ 22 * 10 ^ 9 := by exact_mod_cast hn
  have hfirst : |(n : ℚ) / 10 ^ 9 - v| ≤ 1 / 2 ^ 32 :=
    hv.abs_sub_le_of_le (by positivity) ((div_le_iff₀ (by positivity)).2 hmost)
  have htime : Representable 53 n := by
    have hunits : Representable 53 (n * 2 ^ (0 : ℤ)) :=
      representable_natCast_mul (by decide) (by omega) (by decide)
    rwa [zpow_zero, mul_one] at hunits
  have hscaled : |v * 10 ^ 9 - n| = |(n : ℚ) / 10 ^ 9 - v| * 10 ^ 9 := by
    rw [← abs_of_pos (show (0 : ℚ) < 10 ^ 9 by positivity), ← abs_mul,
      abs_of_pos (show (0 : ℚ) < 10 ^ 9 by positivity), sub_mul,
      div_mul_cancel₀ _ (by positivity), abs_sub_comm]
  have hnear : |v * 10 ^ 9 - n| ≤ 1 / 2 ^ 32 * 10 ^ 9 := by
    rw [hscaled]
    exact mul_le_mul_of_nonneg_right hfirst (by positivity)
  refine halfAway_of_near ?_
  calc |w - (n : ℤ)| ≤ |w - v * 10 ^ 9| + |v * 10 ^ 9 - n| := abs_sub_le _ _ _
    _ ≤ |v * 10 ^ 9 - n| + |v * 10 ^ 9 - n| :=
        add_le_add_left ((abs_sub_comm w _).le.trans (hw.abs_sub_le htime)) _
    _ ≤ 1 / 2 ^ 32 * 10 ^ 9 + 1 / 2 ^ 32 * 10 ^ 9 := add_le_add hnear hnear
    _ < 1 / 2 := by norm_num

end rounded

/-- Every time but the least word is read from its text, and the least word is refused. Behind a plus
sign a time that is not negative is read as the integer nearest to `w`, where `v` is the binary64
number nearest to its seconds and `w` the one nearest to the nanoseconds of `v`; up to `2 ^ 22` seconds
that is the time. -/
theorem readSeconds_roundTrip {α : Type} [Scalar α] (number : List Char → Option α) (t : Int64) :
    (t ≠ Int64.minValue → readSeconds number (timeText t) = .ok t) ∧
    (t = Int64.minValue →
      ∃ fault, readSeconds number (timeText t) = .error (.ingestion fault)) ∧
    (0 ≤ t → ∃ v w, NearestBinary64 (t.toInt / 10 ^ 9) v ∧ NearestBinary64 (v * 10 ^ 9) w ∧
      AnswersWord (readSeconds readFloat ('+' :: timeText t)) (halfAway w)) ∧
    (0 ≤ t → t.toInt ≤ 2 ^ 22 * 10 ^ 9 → readSeconds readFloat ('+' :: timeText t) = .ok t) := by
  refine ⟨readSeconds_timeText number, ?_, fun hle => ?_, fun hle hmost => ?_⟩
  · rintro rfl
    exact readSeconds_timeText_minValue number
  · obtain ⟨n, ht, htext⟩ := exists_timeText_of_nonneg hle
    have hlt := Int64.toInt_lt t
    rw [htext, ht, Int.cast_natCast]
    exact readSeconds_plus (by omega)
  · obtain ⟨n, ht, htext⟩ := exists_timeText_of_nonneg hle
    obtain ⟨v, w, hv, hw, hanswer⟩ := readSeconds_plus (n := n) (by omega)
    rw [htext]
    exact hanswer.1 t (ht.trans (halfAway_of_two_roundings (by omega) hv hw).symm)

theorem readSeconds_roundTrip_lastNanosecond :
    timeText (-1) = "-0.000000001".toList ∧
    readSeconds readFloat "-0.000000001".toList = .ok (-1) ∧
    (∃ fault, readSeconds readFloat (timeText Int64.minValue) = .error (.ingestion fault)) ∧
    (∃ v w, NearestBinary64 (1403636579758555393 / 10 ^ 9) v ∧ NearestBinary64 (v * 10 ^ 9) w ∧
      AnswersWord (readSeconds readFloat ('+' :: timeText 1403636579758555393)) (halfAway w)) ∧
    readSeconds readFloat "+4194304.000000000".toList = .ok 4194304000000000 := by
  obtain ⟨hexact, -, -, -⟩ := readSeconds_roundTrip readFloat (-1)
  obtain ⟨-, hleast, -, -⟩ := readSeconds_roundTrip readFloat Int64.minValue
  obtain ⟨-, -, hrounded, -⟩ := readSeconds_roundTrip readFloat 1403636579758555393
  obtain ⟨-, -, -, hshort⟩ := readSeconds_roundTrip readFloat 4194304000000000
  have hepoch : ((1403636579758555393 : Int64).toInt : ℚ) = 1403636579758555393 := by
    rw [show (1403636579758555393 : Int64).toInt = 1403636579758555393 from rfl]
    norm_num
  rw [hepoch] at hrounded
  exact ⟨by decide, hexact (by decide), hleast rfl, hrounded (by decide),
    hshort (by decide) (by decide)⟩

/-- One nanosecond is lost, because the time behind the plus sign has more digits than a binary64
number; and the text of the least word is refused. -/
theorem readSeconds_plus_epoch :
    timeText 1403636579758555393 = "1403636579.758555393".toList ∧
    readSeconds readFloat ('+' :: timeText 1403636579758555393) = .ok 1403636579758555392 ∧
    timeText Int64.minValue = "-9223372036.854775808".toList ∧
    ∃ fault, readSeconds readFloat (timeText Int64.minValue) = .error (.ingestion fault) :=
  ⟨by decide, rfl, by decide, _, rfl⟩

end Table
end TrackingScore
