import TrackingScore.Proofs.Binary64Rounding
import TrackingScore.Proofs.ShortestDecimal
import TrackingScore.Proofs.WrittenJson

/-!
How a binary64 number is written in JSON: as a number by the grammar, if it is finite. The decimal it is
written as rounds to it, so different finite numbers are written as different decimals.
-/

namespace TrackingScore.Json

open Decimal (value zeros)

def Numeral.magnitude (n : Numeral) : ℚ :=
  value (n.whole ++ n.fraction) * 10 ^ (n.exponent.getD 0 - n.fraction.length)

namespace NumberText

def unsigned (n : NumberText) : List Char := n.whole ++ (n.places ++ n.power)

def withSign (negative : Bool) (n : NumberText) : NumberText := { n with negative := negative }

theorem string_withSign (negative : Bool) (n : NumberText) :
    (n.withSign negative).string = (if negative then "-" else "") ++ String.ofList n.unsigned := by
  rw [← String.toList_inj, String.toList_append, string, String.toList_ofList, String.toList_ofList]
  cases negative <;> rfl

end NumberText

/-! ## Layouts of digits -/

section layouts

variable {d : ℕ}

theorem toDigits_ne_zero_cons (hd : 0 < d) (rest : List Char) : Nat.toDigits 10 d ≠ '0' :: rest := by
  intro h
  obtain rfl := Decimal.eq_nil_of_toDigits_eq_zero_cons h
  have hvalue := Decimal.value_toDigits d
  rw [h] at hvalue
  exact hd.ne hvalue

theorem isDigit_replicate_zero (n : ℕ) : ∀ c ∈ List.replicate n '0', Decimal.isDigit c = true := by
  intro c hc
  rw [List.eq_of_mem_replicate hc]
  rfl

theorem isDigit_append {ds es : List Char} (hds : ∀ c ∈ ds, Decimal.isDigit c = true)
    (hes : ∀ c ∈ es, Decimal.isDigit c = true) : ∀ c ∈ ds ++ es, Decimal.isDigit c = true :=
  List.forall_mem_append.2 ⟨hds, hes⟩

theorem exists_plain {whole fraction : List Char} (hne : whole ≠ [])
    (hwhole : ∀ c ∈ whole, Decimal.isDigit c = true)
    (hzero : ∀ rest, whole = '0' :: rest → rest = []) (hfraction : ∀ c ∈ fraction, Decimal.isDigit c = true)
    (hplaces : fraction ≠ []) :
    ∃ n : NumberText, n.unsigned = whole ++ '.' :: fraction ∧
      n.numeral.magnitude = value (whole ++ fraction) * 10 ^ (-(fraction.length : ℤ)) := by
  refine ⟨⟨false, whole, fraction, none, hne, hwhole, hzero, hfraction⟩, ?_, ?_⟩
  · simp [NumberText.unsigned, NumberText.places, NumberText.power, hplaces]
  · simp [Numeral.magnitude, NumberText.numeral]

theorem exists_small (d zeros : ℕ) :
    ∃ n : NumberText, n.unsigned = '0' :: '.' :: (List.replicate zeros '0' ++ Nat.toDigits 10 d) ∧
      n.numeral.magnitude = d * 10 ^ (-(zeros + (Nat.toDigits 10 d).length : ℤ)) := by
  obtain ⟨n, htext, hvalue⟩ := exists_plain (List.cons_ne_nil '0' []) (by simp; rfl) (by simp)
    (isDigit_append (isDigit_replicate_zero zeros) (NumberText.isDigit_toDigits d))
    (by simp [Nat.toDigits_ne_nil])
  refine ⟨n, htext, ?_⟩
  rw [hvalue, Decimal.value_append, Decimal.value_append, Decimal.value_replicate_zero,
    Decimal.value_toDigits]
  simp [Decimal.value, Decimal.digitValue]

theorem exists_large (hd : 0 < d) (zeros : ℕ) :
    ∃ n : NumberText, n.unsigned = Nat.toDigits 10 d ++ (List.replicate zeros '0' ++ ['.', '0']) ∧
      n.numeral.magnitude = d * 10 ^ (zeros : ℤ) := by
  have hzero : ∀ rest, Nat.toDigits 10 d ++ List.replicate zeros '0' = '0' :: rest → rest = [] := by
    intro rest h
    obtain ⟨c, digits, hdigits⟩ := List.exists_cons_of_ne_nil (Nat.toDigits_ne_nil (b := 10) (n := d))
    rw [hdigits, List.cons_append] at h
    rw [(List.cons.inj h).1] at hdigits
    exact absurd hdigits (toDigits_ne_zero_cons hd digits)
  obtain ⟨n, htext, hvalue⟩ := exists_plain (by simp [Nat.toDigits_ne_nil])
    (isDigit_append (NumberText.isDigit_toDigits d) (isDigit_replicate_zero zeros)) hzero
    (isDigit_replicate_zero 1) (by simp)
  refine ⟨n, by simp [htext], ?_⟩
  rw [hvalue, Decimal.value_append, Decimal.value_append, Decimal.value_replicate_zero,
    Decimal.value_replicate_zero, Decimal.value_toDigits]
  simp

theorem take_digits (hd : 0 < d) {count : ℕ} (hcount : 0 < count) :
    (Nat.toDigits 10 d).take count ≠ [] ∧
      (∀ c ∈ (Nat.toDigits 10 d).take count, Decimal.isDigit c = true) ∧
      (∀ rest, (Nat.toDigits 10 d).take count = '0' :: rest → rest = []) ∧
      ∀ c ∈ (Nat.toDigits 10 d).drop count, Decimal.isDigit c = true := by
  refine ⟨by simp [Nat.toDigits_ne_nil, hcount.ne'],
    fun c hc => NumberText.isDigit_toDigits d c (List.mem_of_mem_take hc), fun rest h => ?_,
    fun c hc => NumberText.isDigit_toDigits d c (List.mem_of_mem_drop hc)⟩
  obtain ⟨c, digits, hdigits⟩ := List.exists_cons_of_ne_nil (Nat.toDigits_ne_nil (b := 10) (n := d))
  obtain ⟨count, rfl⟩ := Nat.exists_eq_add_one_of_ne_zero hcount.ne'
  rw [hdigits, List.take_succ_cons] at h
  rw [(List.cons.inj h).1] at hdigits
  exact absurd hdigits (toDigits_ne_zero_cons hd digits)

theorem exists_middle (hd : 0 < d) {point : ℕ} (hpos : 0 < point)
    (hlt : point < (Nat.toDigits 10 d).length) :
    ∃ n : NumberText,
      n.unsigned = (Nat.toDigits 10 d).take point ++ '.' :: (Nat.toDigits 10 d).drop point ∧
      n.numeral.magnitude = d * 10 ^ (point - (Nat.toDigits 10 d).length : ℤ) := by
  obtain ⟨hne, hwhole, hzero, hfraction⟩ := take_digits hd hpos
  obtain ⟨n, htext, hvalue⟩ := exists_plain hne hwhole hzero hfraction (by simpa using hlt)
  refine ⟨n, htext, ?_⟩
  rw [hvalue, List.take_append_drop, Decimal.value_toDigits, List.length_drop, Nat.cast_sub hlt.le,
    neg_sub]

def ExponentText.ofInt (i : ℤ) : ExponentText where
  capital := false
  minus? := some (NumberText.ofInt i).negative
  digits := (NumberText.ofInt i).whole
  digits_ne_nil := (NumberText.ofInt i).whole_ne_nil
  isDigit_digits := (NumberText.ofInt i).isDigit_whole

theorem ExponentText.chars_ofInt (i : ℤ) :
    (ofInt i).chars = 'e' :: (if i < 0 then '-' else '+') :: Nat.toDigits 10 i.natAbs := by
  rcases lt_or_ge i 0 with hneg | hpos
  · simp [chars, sign, ofInt, NumberText.ofInt, hneg]
  · simp [chars, sign, ofInt, NumberText.ofInt, not_lt.2 hpos]

theorem ExponentText.value_ofInt (i : ℤ) : (ofInt i).value = i := by
  have hdigits : Decimal.value (ofInt i).digits = i.natAbs := Decimal.value_toDigits _
  rw [ExponentText.value, hdigits]
  rcases lt_or_ge i 0 with hneg | hpos
  · rw [if_pos (by simp [ofInt, NumberText.ofInt, hneg])]
    omega
  · rw [if_neg (by simp [ofInt, NumberText.ofInt, not_lt.2 hpos])]
    omega

theorem exists_scientific (hd : 0 < d) (exponent : ℤ) :
    ∃ n : NumberText,
      n.unsigned = (Nat.toDigits 10 d).take 1 ++
        ((if (Nat.toDigits 10 d).drop 1 = [] then [] else '.' :: (Nat.toDigits 10 d).drop 1) ++
          'e' :: (if exponent < 0 then '-' else '+') :: Nat.toDigits 10 exponent.natAbs) ∧
      n.numeral.magnitude = d * 10 ^ (exponent + 1 - (Nat.toDigits 10 d).length : ℤ) := by
  obtain ⟨hne, hwhole, hzero, hfraction⟩ := take_digits hd one_pos
  have hlength : 1 ≤ (Nat.toDigits 10 d).length := Nat.length_toDigits_pos
  refine ⟨⟨false, _, _, some (.ofInt exponent), hne, hwhole, hzero, hfraction⟩, ?_, ?_⟩
  · rw [NumberText.unsigned, NumberText.places, NumberText.power]
    simp only [ExponentText.chars_ofInt]
  · simp only [Numeral.magnitude, NumberText.numeral, List.take_append_drop, Decimal.value_toDigits,
      Option.map_some, Option.getD_some, ExponentText.value_ofInt, List.length_drop,
      Nat.cast_sub hlength]
    congr 2
    push_cast
    ring

/-! ## Texts of decimals -/

theorem toList_toString_nat (d : ℕ) : (toString d).toList = Nat.toDigits 10 d := Nat.toList_repr

theorem length_toString_nat (d : ℕ) : (toString d).length = (Nat.toDigits 10 d).length := by
  rw [← String.length_toList, toList_toString_nat]

theorem exists_fixed (hd : 0 < d) (point : ℤ) :
    ∃ n : NumberText, String.ofList n.unsigned = Decimal.json.fixed (toString d) point ∧
      n.numeral.magnitude = d * 10 ^ (point - (Nat.toDigits 10 d).length) := by
  simp only [← String.toList_inj, String.toList_ofList, Decimal.Layout.fixed, length_toString_nat]
  rcases le_or_gt point 0 with hsmall | hpoint
  · obtain ⟨n, htext, hvalue⟩ := exists_small d (-point).toNat
    refine ⟨n, ?_, ?_⟩
    · rw [if_pos hsmall, htext, String.toList_append, String.toList_append, zeros,
        String.toList_ofList, toList_toString_nat]
      simp
    · rw [hvalue]
      congr 2
      omega
  obtain ⟨point, rfl⟩ := Int.eq_ofNat_of_zero_le hpoint.le
  rcases le_or_gt (Nat.toDigits 10 d).length point with hlarge | hmiddle
  · obtain ⟨n, htext, hvalue⟩ := exists_large hd (point - (Nat.toDigits 10 d).length)
    refine ⟨n, ?_, ?_⟩
    · rw [if_neg hpoint.not_ge, if_pos (by exact_mod_cast hlarge), htext, String.toList_append,
        String.toList_append, zeros, String.toList_ofList, toList_toString_nat, List.append_assoc]
      rfl
    · rw [hvalue, Nat.cast_sub hlarge]
  · obtain ⟨n, htext, hvalue⟩ := exists_middle hd (by exact_mod_cast hpoint) hmiddle
    refine ⟨n, ?_, hvalue⟩
    rw [if_neg hpoint.not_ge, if_neg (by exact_mod_cast hmiddle.not_ge), htext, String.toList_append,
      String.toList_append, String.toList_ofList, String.toList_ofList, toList_toString_nat,
      List.append_assoc]
    simp

theorem exists_withExponent (hd : 0 < d) (point : ℤ) :
    ∃ n : NumberText, String.ofList n.unsigned = Decimal.json.withExponent (toString d) point ∧
      n.numeral.magnitude = d * 10 ^ (point - (Nat.toDigits 10 d).length) := by
  obtain ⟨n, htext, hvalue⟩ := exists_scientific hd (point - 1)
  refine ⟨n, ?_, by rw [hvalue, sub_add_cancel]⟩
  have hexponent : (if point - 1 < 0 then '-' else '+') :: Nat.toDigits 10 (point - 1).natAbs =
      (if Decimal.json.plusSign && decide (0 ≤ point - 1) then "+" else "").toList ++
        (toString (point - 1)).toList := by
    rw [Decimal.toList_toString_int]
    rcases lt_or_ge (point - 1) 0 with hneg | hpos
    · simp only [if_pos hneg, if_neg hneg.not_ge, decide_eq_false hneg.not_ge, Bool.and_false]
      rfl
    · simp only [if_pos hpos, if_neg hpos.not_gt, decide_eq_true hpos, Bool.and_true]
      rfl
  rw [← String.toList_inj, String.toList_ofList, htext, hexponent, Decimal.Layout.withExponent,
    toList_toString_nat]
  simp only [String.toList_append, String.toList_ofList]
  have hempty (rest : List Char) : (String.ofList rest).isEmpty = true ↔ rest = [] := by
    rw [String.isEmpty_iff, ← String.toList_inj, String.toList_ofList]
    rfl
  generalize (Nat.toDigits 10 d).drop 1 = rest
  simp only [hempty]
  split <;> simp

theorem exists_laidOut {d : Decimal.Scientific} (hd : 0 < d.digits) :
    ∃ n : NumberText, n.numeral.magnitude = d.value ∧ String.ofList n.unsigned =
      let point := d.exponent + (toString d.digits).length
      if -4 ≤ point && point ≤ 16 then Decimal.json.fixed (toString d.digits) point
      else Decimal.json.withExponent (toString d.digits) point := by
  have hvalue : d.digits *
      (10 : ℚ) ^ (d.exponent + (toString d.digits).length - (Nat.toDigits 10 d.digits).length) =
        d.value := by
    rw [length_toString_nat, add_sub_cancel_right]
    rfl
  simp only
  split
  · obtain ⟨n, htext, hn⟩ := exists_fixed hd (d.exponent + (toString d.digits).length)
    exact ⟨n, hn.trans hvalue, htext⟩
  · obtain ⟨n, htext, hn⟩ := exists_withExponent hd (d.exponent + (toString d.digits).length)
    exact ⟨n, hn.trans hvalue, htext⟩

/-- A positive number is written as a number by the grammar, and the decimal it stands for rounds to
it. -/
theorem exists_magnitude {m : ℕ} {e : ℤ} (h : Canonical m e) :
    ∃ n : NumberText, String.ofList n.unsigned = Decimal.json.magnitude m e ∧
      RoundsTo m e n.numeral.magnitude := by
  have hround := Decimal.roundsTo_shortest h .even
  have hdigits : 0 < (Decimal.shortest .even m e).digits := by
    refine Nat.pos_of_ne_zero fun hzero => (hround.pos h.pos).ne' ?_
    rw [Decimal.Scientific.value, hzero, Nat.cast_zero, zero_mul]
  obtain ⟨n, hvalue, htext⟩ := exists_laidOut hdigits
  refine ⟨n, ?_, hvalue ▸ hround⟩
  rw [htext, Decimal.Layout.magnitude, if_neg h.pos.ne']
  rfl

theorem exists_zero (e : ℤ) :
    ∃ n : NumberText, String.ofList n.unsigned = Decimal.json.magnitude 0 e ∧
      n.numeral.magnitude = 0 := by
  refine ⟨⟨false, ['0'], ['0'], none, by simp, by simp; rfl, by simp, by simp; rfl⟩, ?_, ?_⟩
  · rw [Decimal.Layout.magnitude, if_pos rfl]
    rfl
  · simp [Numeral.magnitude, NumberText.numeral, value, Decimal.digitValue]

end layouts

/-! ## Written numbers -/

section numbers

variable {x y : Float} {negative : Bool} {m : ℕ} {e : ℤ}

theorem canonical_of_ofFloat (h : Binary64.ofFloat x = .finite negative m e) (hm : 0 < m) :
    Canonical m e :=
  let ⟨hlt, hlow, hhigh, hfull⟩ := Binary64.ofBits_shape h
  ⟨hm, hlt, hlow, hhigh, hfull⟩

theorem isFinite_iff :
    x.isFinite = true ↔ ∃ negative m e, Binary64.ofFloat x = .finite negative m e := by
  have hmodel : x.isFinite = x.toModel.unpack.isFinite := rfl
  rw [hmodel, Binary64.ofFloat_eq]
  cases x.toModel.unpack <;> simp [Binary64.ofUnpacked, Float.Model.UnpackedFloat.isFinite]

theorem toNat_of_ofBits {word : UInt64} (h : Binary64.ofBits word = .finite negative m e) :
    word.toNat = (if negative then 2 ^ 63 else 0) +
      (if m < 2 ^ 52 then m else (e + 1075).toNat * 2 ^ 52 + (m - 2 ^ 52)) := by
  have hlt := word.toNat_lt
  have hbit : Binary64.hiddenBit = 2 ^ 52 := rfl
  simp only [Binary64.ofBits, hbit] at h
  split at h
  · split at h <;> cases h
  · split at h
    · obtain ⟨rfl, rfl, rfl⟩ := Binary64.finite.inj h
      rw [if_pos (Nat.mod_lt _ (by norm_num))]
      simp only [decide_eq_true_eq]
      split <;> omega
    · obtain ⟨rfl, rfl, rfl⟩ := Binary64.finite.inj h
      rw [if_neg (Nat.le_add_left _ _).not_gt]
      simp only [decide_eq_true_eq]
      split <;> omega

theorem eq_of_ofFloat (h : Binary64.ofFloat x = .finite negative m e)
    (h' : Binary64.ofFloat y = .finite negative m e) : x = y :=
  Float.toBits_inj.1 (UInt64.toNat_inj.1 ((toNat_of_ofBits h).trans (toNat_of_ofBits h').symm))

theorem exists_text (h : Binary64.ofFloat x = .finite negative m e) :
    ∃ n : NumberText, Decimal.json.text x = n.string ∧ n.negative = negative ∧
      (m = 0 → n.numeral.magnitude = 0) ∧ (0 < m → RoundsTo m e n.numeral.magnitude) := by
  have htext : Decimal.json.text x = (if negative then "-" else "") ++ Decimal.json.magnitude m e := by
    rw [Decimal.Layout.text, h]
  rcases Nat.eq_zero_or_pos m with rfl | hm
  · obtain ⟨n, hn, hzero⟩ := exists_zero e
    exact ⟨n.withSign negative, by rw [htext, n.string_withSign, hn], rfl, fun _ => hzero,
      fun hpos => absurd hpos (lt_irrefl 0)⟩
  · obtain ⟨n, hn, hround⟩ := exists_magnitude (canonical_of_ofFloat h hm)
    exact ⟨n.withSign negative, by rw [htext, n.string_withSign, hn], rfl,
      fun hzero => absurd hzero hm.ne', fun _ => hround⟩

theorem exists_string (h : x.isFinite = true) : ∃ n : NumberText, Decimal.json.text x = n.string := by
  obtain ⟨negative, m, e, hx⟩ := isFinite_iff.1 h
  obtain ⟨n, htext, -⟩ := exists_text hx
  exact ⟨n, htext⟩

/-- Finite numbers with one text are one number. -/
theorem eq_of_text_eq (hx : x.isFinite = true) (hy : y.isFinite = true)
    (h : numeralOf (Decimal.json.text x) = numeralOf (Decimal.json.text y)) : x = y := by
  obtain ⟨negative, m, e, hx⟩ := isFinite_iff.1 hx
  obtain ⟨negative', m', e', hy⟩ := isFinite_iff.1 hy
  obtain ⟨n, htext, hnegative, hzero, hround⟩ := exists_text hx
  obtain ⟨n', htext', hnegative', hzero', hround'⟩ := exists_text hy
  rw [htext, htext', numeralOf_string, numeralOf_string] at h
  have hnumeral := Except.ok.inj h
  obtain rfl : negative = negative' := by
    rw [← hnegative, ← hnegative']
    exact congrArg Numeral.negative hnumeral
  have hmagnitude : n.numeral.magnitude = n'.numeral.magnitude := congrArg Numeral.magnitude hnumeral
  rcases Nat.eq_zero_or_pos m with rfl | hm
  · obtain rfl : m' = 0 := by
      by_contra hm'
      refine ((hround' (Nat.pos_of_ne_zero hm')).pos (Nat.pos_of_ne_zero hm')).ne' ?_
      rw [← hmagnitude, hzero rfl]
    have he : e = -1074 := (Binary64.ofBits_shape hx).2.2.2.resolve_left (by norm_num)
    have he' : e' = -1074 := (Binary64.ofBits_shape hy).2.2.2.resolve_left (by norm_num)
    exact eq_of_ofFloat (he ▸ hx) (he' ▸ hy)
  · have hm' : 0 < m' := by
      refine Nat.pos_of_ne_zero fun hm' => ((hround hm).pos hm).ne' ?_
      rw [hmagnitude, hzero' hm']
    obtain ⟨rfl, rfl⟩ := (hround hm).unique (hmagnitude ▸ hround' hm') (canonical_of_ofFloat hx hm)
      (canonical_of_ofFloat hy hm')
    exact eq_of_ofFloat hx hy

@[simp] theorem numbers_ofFloat (x : Float) : Numbers (ofFloat x).spellings := by
  by_cases h : x.isFinite = true
  · obtain ⟨n, htext⟩ := exists_string h
    rw [ofFloat, if_pos h, htext]
    exact numbers_string n
  · rw [ofFloat, if_neg h]
    exact numbers_nil

end numbers
end TrackingScore.Json
