import TrackingScore.Proofs.DecimalToBinary64
import TrackingScore.Table.Field

/-!
Plain decimal text as a timestamp. Digits without a point are read exactly if they fit. Other text is
read as a binary64 number first, and the timestamp is the integer nearest to that: two roundings, so a
text of more digits than the format holds may give a neighbour of the nearest integer.
-/

namespace TrackingScore

/-- Nearest integer, a half going away from zero. -/
def halfAway (x : ℚ) : ℤ := if 0 ≤ x then ⌊x + 1 / 2⌋ else -⌊-x + 1 / 2⌋

theorem halfAway_of_nonneg {x : ℚ} (h : 0 ≤ x) : halfAway x = ⌊x + 1 / 2⌋ := if_pos h

theorem halfAway_neg (x : ℚ) : halfAway (-x) = -halfAway x := by
  rcases lt_trichotomy x 0 with h | rfl | h
  · rw [halfAway, halfAway, if_pos (by linarith), if_neg (by linarith), neg_neg]
  · rw [neg_zero, halfAway_of_nonneg le_rfl]
    norm_num
  · rw [halfAway, halfAway, if_neg (by linarith), if_pos h.le, neg_neg]

theorem floor_add_half (n : ℤ) : ⌊(n : ℚ) + 1 / 2⌋ = n := by
  rw [Int.floor_intCast_add, show ⌊(1 / 2 : ℚ)⌋ = 0 by norm_num, add_zero]

theorem halfAway_intCast (n : ℤ) : halfAway n = n := by
  rw [halfAway, floor_add_half, ← Int.cast_neg, floor_add_half, neg_neg, ite_self]

theorem int64?_halfAway_eq_none {v : ℚ} (h : 2 ^ 63 ≤ v ∨ v ≤ -(2 ^ 63 + 2 ^ 11)) :
    int64? (halfAway v) = none := by
  have hmin := Int64.toInt_minValue
  have hmax := Int64.toInt_maxValue
  rcases h with hlarge | hsmall
  · have hfloor : (2 ^ 63 : ℤ) ≤ ⌊v + 1 / 2⌋ := by
      refine Int.le_floor.2 ?_
      push_cast
      linarith
    rw [halfAway_of_nonneg (le_trans (by positivity) hlarge)]
    exact int64?_eq_none (.inr (by omega))
  · have hfloor : (2 ^ 63 + 2 ^ 11 : ℤ) ≤ ⌊-v + 1 / 2⌋ := by
      refine Int.le_floor.2 ?_
      push_cast
      linarith
    rw [← neg_neg v, halfAway_neg, halfAway_of_nonneg (by linarith)]
    exact int64?_eq_none (.inl (by omega))

namespace Binary64

theorem nearestNat_eq (m : ℕ) (e : ℤ) : (nearestNat m e : ℤ) = ⌊(m : ℚ) * 2 ^ e + 1 / 2⌋ := by
  cases e with
  | ofNat k =>
    have hvalue : (m : ℚ) * 2 ^ (Int.ofNat k) = ((m * 2 ^ k : ℕ) : ℤ) := by
      rw [Int.ofNat_eq_natCast, zpow_natCast]
      push_cast
      rfl
    rw [hvalue, floor_add_half]
    rfl
  | negSucc k =>
    have hvalue : (m : ℚ) * 2 ^ (Int.negSucc k) + 1 / 2 =
        ((m + 2 ^ k : ℕ) : ℚ) / ((2 ^ (k + 1) : ℕ) : ℚ) := by
      rw [zpow_negSucc]
      push_cast
      field_simp
      ring
    rw [hvalue, Rat.floor_natCast_div_natCast]
    rfl

/-- The nearest integer to a word is that to the value it holds; a word out of range has none, and
neither is its value in reach of a timestamp. -/
theorem nearestInt?_bind_int64? {b : Binary64} {v : ℚ} (h : b.Holds v) :
    b.nearestInt?.bind int64? = int64? (halfAway v) := by
  cases b with
  | notANumber => exact h.elim
  | infinite negative =>
    have hstep : (2 : ℚ) ^ 63 + 2 ^ 11 ≤ 2 ^ 64 := by norm_num
    have hpow : (2 : ℚ) ^ 64 ≤ 2 ^ 1024 := pow_le_pow_right₀ (by norm_num) (by decide)
    have hfar := (hstep.trans hpow).trans h
    refine (int64?_halfAway_eq_none ?_).symm
    cases negative
    · exact .inl ((le_add_of_nonneg_right (by positivity)).trans hfar)
    · exact .inr (le_neg_of_le_neg hfar)
  | finite negative m e =>
    have hnonneg : 0 ≤ (m : ℚ) * 2 ^ e := by positivity
    cases negative
    · have hv : v = (m : ℚ) * 2 ^ e := h
      rw [hv, halfAway_of_nonneg hnonneg, ← nearestNat_eq]
      rfl
    · have hv : v = -((m : ℚ) * 2 ^ e) := h
      rw [hv, halfAway_neg, halfAway_of_nonneg hnonneg, ← nearestNat_eq]
      rfl

end Binary64

namespace Decimal

variable {p : Plain}

def Plain.signedWhole (p : Plain) : ℤ :=
  if p.sign = .minus then -(value p.whole : ℤ) else value p.whole

theorem toRat_of_no_point (h : p.fraction = none) : p.toRat = p.signedWhole := by
  have hmagnitude : p.magnitude = value p.whole := by
    rw [Plain.magnitude, Plain.places, h]
    simp [value]
  rw [Plain.toRat, Sign.apply, Plain.signedWhole, hmagnitude]
  split <;> push_cast <;> rfl

theorem natural?_unsigned :
    natural? p.unsigned = if p.fraction = none then some (value p.whole) else none := by
  cases hfraction : p.fraction with
  | none =>
    have hunsigned : p.unsigned = p.whole := by rw [Plain.unsigned, hfraction]
    have hne : p.whole ≠ [] := by
      have hdigits := p.digits_ne_nil
      rwa [hfraction, Option.getD_none, List.append_nil] at hdigits
    rw [hunsigned, natural?_of_digits hne p.isDigit_whole, if_pos rfl]
  | some places =>
    have hunsigned : p.unsigned = p.whole ++ '.' :: places := by rw [Plain.unsigned, hfraction]
    have hpoint : (p.whole ++ '.' :: places).all isDigit = false :=
      List.all_eq_false.2 ⟨'.', by simp, by decide⟩
    rw [hunsigned, natural?, hpoint, Bool.and_false]
    simp

theorem readInt64_text :
    readInt64 p.text = if p.fraction = none then int64? p.signedWhole else none := by
  have hunsigned := natural?_unsigned (p := p)
  cases hsign : p.sign with
  | none =>
    rw [p.text_of_none hsign]
    unfold readInt64
    split
    · rename_i hminus
      exact absurd hminus (p.unsigned_ne_cons (by decide) _)
    · rename_i hplus
      exact absurd hplus (p.unsigned_ne_cons (by decide) _)
    · rw [hunsigned, Plain.signedWhole, hsign]
      split <;> rfl
  | plus =>
    rw [p.text_of_plus hsign]
    simp only [readInt64, hunsigned, Plain.signedWhole, hsign]
    split <;> rfl
  | minus =>
    rw [p.text_of_minus hsign]
    simp only [readInt64, hunsigned, Plain.signedWhole, hsign]
    split <;> rfl

end Decimal

namespace Table

open Decimal Scalar

variable {α : Type}

def AnswersWord (answer : Except (EvalError α) Int64) (n : ℤ) : Prop :=
  (∀ t : Int64, t.toInt = n → answer = .ok t) ∧
    ((∀ t : Int64, t.toInt ≠ n) → ∃ fault, answer = .error (.ingestion fault))

theorem answersWord_int64? (fault : IngestionFault α) (n : ℤ) :
    AnswersWord ((int64? n).elim (.error (.ingestion fault)) .ok) n := by
  refine ⟨fun t ht => ?_, fun hnone => ⟨fault, ?_⟩⟩
  · rw [int64?_eq_some_iff.2 ht]
    rfl
  · cases h : int64? n with
    | none => rfl
    | some t => exact absurd (int64?_eq_some_iff.1 h) (hnone t)

theorem AnswersWord.refused {answer : Except (EvalError α) Int64} {n : ℤ}
    (h : AnswersWord answer n) (hn : int64? n = none) :
    ∃ fault, answer = .error (.ingestion fault) := by
  refine h.2 fun t ht => ?_
  rw [int64?_eq_some_iff.2 ht] at hn
  cases hn

theorem timestampOf?_eq {x : Float} {v : ℚ} (h : (Binary64.ofFloat x).Holds v) :
    timestampOf? x = int64? (halfAway v) := Binary64.nearestInt?_bind_int64? h

theorem readTimestamp_eq (number : List Char → Option Float) (field : List Char) :
    readTimestamp number field =
      ((readInt64 (Text.trim field)).or ((number (Text.trim field)).bind timestampOf?)).elim
        (.error (.ingestion (.invalidTimestamp (String.ofList (Text.trim field))))) .ok := by
  unfold readTimestamp
  simp only
  cases readInt64 (Text.trim field) with
  | some t => rfl
  | none => cases (number (Text.trim field)).bind timestampOf? <;> rfl

variable {p : Plain} {field : List Char}

theorem readTimestamp_of_inexact (htrim : Text.trim field = p.text) (h : readInt64 p.text = none) :
    ∃ v, NearestBinary64 p.toRat v ∧
      AnswersWord (readTimestamp readFloat field) (halfAway v) := by
  obtain ⟨x, v, hx, hv, hholds⟩ := holds_readFloat p
  refine ⟨v, hv, ?_⟩
  rw [readTimestamp_eq, htrim, h, hx]
  simp only [Option.none_or, Option.bind_some, timestampOf?_eq hholds]
  exact answersWord_int64? _ _

theorem readTimestamp_of_exact {t : Int64} (htrim : Text.trim field = p.text)
    (hpoint : p.fraction = none) (ht : (t.toInt : ℚ) = p.toRat) :
    readTimestamp readFloat field = .ok t := by
  have hwhole : t.toInt = p.signedWhole := by
    rw [toRat_of_no_point hpoint] at ht
    exact_mod_cast ht
  rw [readTimestamp_eq, htrim, readInt64_text, if_pos hpoint, int64?_eq_some_iff.2 hwhole]
  rfl

theorem answersWord_ok (t : Int64) : AnswersWord (.ok t : Except (EvalError α) Int64) t.toInt :=
  ⟨fun _ hu => congrArg Except.ok (Int64.toInt_inj.1 hu.symm), fun hnone => absurd rfl (hnone t)⟩

theorem readTimestamp_cases (htrim : Text.trim field = p.text) :
    (∃ t : Int64, p.fraction = none ∧ (t.toInt : ℚ) = p.toRat ∧
      readTimestamp readFloat field = .ok t) ∨
    (∀ t : Int64, p.fraction = none → (t.toInt : ℚ) ≠ p.toRat) ∧
      ∃ v, NearestBinary64 p.toRat v ∧
        AnswersWord (readTimestamp readFloat field) (halfAway v) := by
  by_cases hexact : ∃ t : Int64, p.fraction = none ∧ (t.toInt : ℚ) = p.toRat
  · obtain ⟨t, hpoint, ht⟩ := hexact
    exact .inl ⟨t, hpoint, ht, readTimestamp_of_exact htrim hpoint ht⟩
  · have hnone : ∀ t : Int64, p.fraction = none → (t.toInt : ℚ) ≠ p.toRat :=
      fun t hpoint ht => hexact ⟨t, hpoint, ht⟩
    refine .inr ⟨hnone, readTimestamp_of_inexact htrim ?_⟩
    rw [readInt64_text]
    split
    · rename_i hpoint
      cases hword : int64? p.signedWhole with
      | none => rfl
      | some t =>
        refine absurd ?_ (hnone t hpoint)
        rw [int64?_eq_some_iff.1 hword, toRat_of_no_point hpoint]
    · rfl

theorem readTimestamp_out_of_range (htrim : Text.trim field = p.text)
    (h : 2 ^ 63 ≤ p.toRat ∨ p.toRat ≤ -(2 ^ 63 + 2 ^ 11)) :
    ∃ fault, readTimestamp readFloat field = .error (.ingestion fault) := by
  rcases readTimestamp_cases htrim with ⟨t, -, ht, -⟩ | ⟨-, v, hv, hanswer⟩
  · have hnone := int64?_halfAway_eq_none h
    rw [← ht, halfAway_intCast, int64?_toInt] at hnone
    cases hnone
  · refine hanswer.refused (int64?_halfAway_eq_none ?_)
    rcases h with hlarge | hsmall
    · exact .inl (hv.le_of_le (representable_two_pow 63 (by decide)) hlarge)
    · have hstep : Representable 53 (2 ^ 63 + 2 ^ 11) :=
        ⟨2 ^ 52 + 1, 11, by norm_num, by norm_num, by norm_num⟩
      have hle := hv.neg.le_of_le hstep (le_neg_of_le_neg hsmall)
      exact .inr (le_neg_of_le_neg hle)

/-- Digits that are a word are read exactly. Other text is read as the integer nearest to `v`, the
binary64 number nearest to the text's number; that is the integer nearest to the number itself when
this is a binary64 number. A text is refused from the first such number outside the range on. -/
theorem readTimestamp_nearest (htrim : Text.trim field = p.text) :
    (∀ t : Int64, p.fraction = none → (t.toInt : ℚ) = p.toRat →
      readTimestamp readFloat field = .ok t) ∧
    ((∀ t : Int64, p.fraction = none → (t.toInt : ℚ) ≠ p.toRat) →
      ∃ v, NearestBinary64 p.toRat v ∧
        AnswersWord (readTimestamp readFloat field) (halfAway v)) ∧
    (Representable 53 p.toRat →
      AnswersWord (readTimestamp readFloat field) (halfAway p.toRat)) ∧
    (2 ^ 63 ≤ p.toRat ∨ p.toRat ≤ -(2 ^ 63 + 2 ^ 11) →
      ∃ fault, readTimestamp readFloat field = .error (.ingestion fault)) := by
  refine ⟨fun t => readTimestamp_of_exact htrim, fun hnone => ?_, fun hrepresentable => ?_,
    readTimestamp_out_of_range htrim⟩
  · rcases readTimestamp_cases htrim with ⟨t, hpoint, ht, -⟩ | ⟨-, hnear⟩
    · exact absurd ht (hnone t hpoint)
    · exact hnear
  · rcases readTimestamp_cases htrim with ⟨t, -, ht, hread⟩ | ⟨-, v, hv, hanswer⟩
    · rw [hread, ← ht, halfAway_intCast]
      exact answersWord_ok t
    · rwa [← hv.of_representable hrepresentable]

def minusFortyTwo : Plain :=
  ⟨.minus, ['4', '2'], none, List.all_eq_true.1 rfl, isDigit_no_places, by decide⟩

def twelveAndHalf : Plain :=
  ⟨.none, ['1', '2'], some ['5'], List.all_eq_true.1 rfl, List.all_eq_true.1 rfl, by decide⟩

def epochNanoseconds : Plain :=
  ⟨.none, "1403636579758555393".toList, some ['0'], List.all_eq_true.1 rfl,
    List.all_eq_true.1 rfl, by decide⟩

def firstPastWords : Plain :=
  ⟨.plus, "9223372036854775808".toList, none, List.all_eq_true.1 rfl, isDigit_no_places, by decide⟩

theorem toRat_twelveAndHalf : twelveAndHalf.toRat = 25 / 2 := by
  have hmagnitude : twelveAndHalf.magnitude = (12 : ℕ) + (5 : ℕ) / 10 ^ 1 := rfl
  rw [Plain.toRat, Sign.apply, if_neg (by decide), hmagnitude]
  norm_num

theorem toRat_epochNanoseconds : epochNanoseconds.toRat = 1403636579758555393 := by
  have hmagnitude : epochNanoseconds.magnitude = (1403636579758555393 : ℕ) + (0 : ℕ) / 10 ^ 1 := rfl
  rw [Plain.toRat, Sign.apply, if_neg (by decide), hmagnitude]
  norm_num

theorem readTimestamp_nearest_twelveAndHalf :
    readTimestamp readFloat minusFortyTwo.text = .ok (-42) ∧
    readTimestamp readFloat " 12.5\n".toList = .ok 13 ∧
    (∃ v, NearestBinary64 1403636579758555393 v ∧
      AnswersWord (readTimestamp readFloat epochNanoseconds.text) (halfAway v)) ∧
    ∃ fault, readTimestamp readFloat firstPastWords.text = .error (.ingestion fault) := by
  have hhalf : halfAway twelveAndHalf.toRat = 13 := by
    rw [toRat_twelveAndHalf, halfAway_of_nonneg (by norm_num)]
    norm_num
  have hrepresentable : Representable 53 twelveAndHalf.toRat := by
    rw [toRat_twelveAndHalf]
    exact ⟨25, -1, by norm_num, by norm_num, by norm_num⟩
  have htwelve : Text.trim " 12.5\n".toList = twelveAndHalf.text := by decide
  obtain ⟨hexact, -, -, -⟩ := readTimestamp_nearest (Text.trim_of_solid minusFortyTwo.solid_text)
  obtain ⟨-, -, hnearest, -⟩ := readTimestamp_nearest htwelve
  obtain ⟨-, hrounded, -, -⟩ := readTimestamp_nearest (Text.trim_of_solid epochNanoseconds.solid_text)
  obtain ⟨-, -, -, hpast⟩ := readTimestamp_nearest (Text.trim_of_solid firstPastWords.solid_text)
  rw [toRat_epochNanoseconds] at hrounded
  refine ⟨hexact (-42) rfl ?_, (hhalf ▸ hnearest hrepresentable).1 13 rfl,
    hrounded fun t hpoint => absurd hpoint (by decide), hpast (.inl ?_)⟩
  · rw [toRat_of_no_point rfl]
    rfl
  · rw [toRat_of_no_point rfl]
    exact Int.cast_mono (show (2 ^ 63 : ℤ) ≤ firstPastWords.signedWhole by decide)

/-- The word is one too small: the text has more digits than a binary64 number. For the same reason
the first integer below the words is taken for the least of them, and the greatest word with a point
is refused. -/
theorem readTimestamp_epochNanoseconds :
    epochNanoseconds.toRat = 1403636579758555393 ∧
    readTimestamp readFloat epochNanoseconds.text = .ok 1403636579758555392 ∧
    ¬AnswersWord (readTimestamp readFloat epochNanoseconds.text)
      (halfAway epochNanoseconds.toRat) ∧
    readTimestamp readFloat "-9223372036854775809".toList = .ok (-9223372036854775808) ∧
    ∃ fault, readTimestamp readFloat "9223372036854775807.0".toList =
      .error (.ingestion fault) := by
  have hread : readTimestamp readFloat epochNanoseconds.text = .ok 1403636579758555392 := rfl
  have hnear : halfAway epochNanoseconds.toRat = 1403636579758555393 := by
    rw [toRat_epochNanoseconds]
    exact halfAway_intCast 1403636579758555393
  refine ⟨toRat_epochNanoseconds, hread, fun hanswer => ?_, rfl, _, rfl⟩
  rw [hnear, hread] at hanswer
  exact absurd (hanswer.1 1403636579758555393 rfl) (by simp)

end Table
end TrackingScore
