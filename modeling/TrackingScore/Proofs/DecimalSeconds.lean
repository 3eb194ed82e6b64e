import TrackingScore.Proofs.PlainDecimal

/-!
Plain decimal text as seconds. It is read as its value in nanoseconds, cut off toward zero, so the
order of the numbers is kept. The same reading goes on words: a slice counts bytes and has to end
between characters, and no product, sum or negation may leave the range of a word.
-/

namespace TrackingScore

open Decimal

def towardZero (x : ℚ) : ℤ := if 0 ≤ x then ⌊x⌋ else ⌈x⌉

theorem towardZero_of_nonneg {x : ℚ} (h : 0 ≤ x) : towardZero x = ⌊x⌋ := if_pos h

theorem towardZero_neg (x : ℚ) : towardZero (-x) = -towardZero x := by
  rcases lt_trichotomy x 0 with h | rfl | h
  · rw [towardZero, towardZero, if_pos (by linarith), if_neg (by linarith), Int.floor_neg]
  · rfl
  · rw [towardZero, towardZero, if_neg (by linarith), if_pos h.le, Int.ceil_neg]

theorem towardZero_le {x y : ℚ} (hxy : x ≤ y) : towardZero x ≤ towardZero y := by
  rw [towardZero, towardZero]
  split_ifs with hx hy hy
  · exact Int.floor_mono hxy
  · exact absurd (hx.trans hxy) hy
  · exact (Int.ceil_le.2 (by exact_mod_cast (not_le.1 hx).le)).trans (Int.floor_nonneg.2 hy)
  · exact Int.ceil_mono hxy

theorem exists_int64? {n : ℕ} (h : n < 2 ^ 63) : ∃ t, int64? n = some t ∧ t.toInt = n := by
  have hmin := Int64.toInt_minValue
  have hmax := Int64.toInt_maxValue
  have hsome : int64? n = some (Int64.ofInt n) := if_pos (by rw [hmin, hmax]; omega)
  exact ⟨_, hsome, int64?_eq_some_iff.1 hsome⟩

theorem int64?_of_le {n : ℕ} (h : 2 ^ 63 ≤ n) : int64? n = none :=
  int64?_eq_none (.inr (by rw [Int64.toInt_maxValue]; omega))

theorem toInt_neg_of_nonneg {t : Int64} (h : 0 ≤ t.toInt) : (-t).toInt = -t.toInt := by
  have hle := Int64.toInt_le t
  rw [Int64.toInt_maxValue] at hle
  rw [Int64.toInt_neg, Int.bmod_eq_of_le (by omega) (by omega)]

namespace Table

open Scalar

variable {α : Type} [Scalar α]

theorem nanoseconds_eq {ds : List Char} (h : ∀ c ∈ ds, isDigit c = true) :
    nanoseconds ds = value ds * 10 ^ 9 / 10 ^ ds.length := by
  have hfront : value ds =
      value (ds.take 9) * 10 ^ (ds.drop 9).length + value (ds.drop 9) := by
    rw [← value_append, List.take_append_drop]
  have hback : value (ds.drop 9) < 10 ^ (ds.drop 9).length :=
    value_lt fun c hc => h c (List.mem_of_mem_drop hc)
  rcases le_total ds.length 9 with hshort | hlong
  · have hpow : (10 : ℕ) ^ 9 = 10 ^ (9 - ds.length) * 10 ^ ds.length := by
      rw [← pow_add, Nat.sub_add_cancel hshort]
    rw [nanoseconds, List.take_of_length_le hshort, hpow, ← Nat.mul_assoc,
      Nat.mul_div_cancel _ (by positivity)]
    rfl
  · have hpow : (10 : ℕ) ^ ds.length = 10 ^ (ds.drop 9).length * 10 ^ 9 := by
      rw [← pow_add, List.length_drop, Nat.sub_add_cancel hlong]
    have hcut : value ds / 10 ^ (ds.drop 9).length = value (ds.take 9) := by
      rw [hfront, Nat.add_comm, Nat.add_mul_div_right _ _ (by positivity),
        Nat.div_eq_of_lt hback, Nat.zero_add]
    rw [hpow, Nat.mul_div_mul_right _ _ (by positivity), hcut, nanoseconds,
      List.length_take_of_le hlong]
    exact Nat.mul_one _

def totalNanoseconds (p : Plain) : ℕ := value p.whole * 1000000000 + nanoseconds p.places

theorem totalNanoseconds_eq (p : Plain) :
    (totalNanoseconds p : ℤ) = ⌊p.magnitude * 10 ^ 9⌋ := by
  have hsum : p.magnitude * 10 ^ 9 =
      ((value p.whole * 1000000000 : ℕ) : ℚ) +
        ((value p.places * 10 ^ 9 : ℕ) : ℚ) / ((10 ^ p.places.length : ℕ) : ℚ) := by
    rw [Plain.magnitude]
    push_cast
    ring
  rw [hsum, Int.floor_natCast_add, Rat.floor_natCast_div_natCast, totalNanoseconds,
    nanoseconds_eq p.isDigit_places]
  rfl

theorem towardZero_toRat (p : Plain) :
    towardZero (p.toRat * 10 ^ 9) =
      if p.sign = .minus then -(totalNanoseconds p : ℤ) else totalNanoseconds p := by
  have hnonneg : 0 ≤ p.magnitude * 10 ^ 9 := mul_nonneg p.magnitude_nonneg (by positivity)
  rw [Plain.toRat, Sign.apply, totalNanoseconds_eq, ← towardZero_of_nonneg hnonneg]
  split
  · rw [neg_mul, towardZero_neg]
  · rfl

def splitSign (token : List Char) : Bool × List Char :=
  match token with
  | '-' :: rest => (true, rest)
  | _ => (false, token)

def parts (token : List Char) : Bool × List Char × List Char :=
  let digits := (splitSign token).2
  ((splitSign token).1, digits.takeWhile (· ≠ '.'), (digits.dropWhile (· ≠ '.')).drop 1)

def timeOf? (number : List Char → Option α) (token : List Char) (negative : Bool)
    (whole fraction : List Char) : Option Int64 :=
  if whole.isEmpty && fraction.isEmpty then none
  else if (whole ++ fraction).all isDigit then secondsOf? negative whole fraction
  else (number token).bind fun seconds => timestampOf? (seconds * 1e9)

theorem readSeconds_eq (number : List Char → Option α) {token whole fraction : List Char}
    {negative : Bool} (h : parts token = (negative, whole, fraction)) :
    readSeconds number token = (timeOf? number token negative whole fraction).elim
      (.error (.ingestion (.invalidTime (String.ofList token)))) .ok := by
  unfold readSeconds
  split
  rename_i negative' digits hsplit
  have hsign : splitSign token = (negative', digits) := hsplit
  simp only [parts, hsign, Prod.mk.injEq] at h
  obtain ⟨rfl, rfl, rfl⟩ := h
  cases htime : timeOf? number token negative' (digits.takeWhile (· ≠ '.'))
      ((digits.dropWhile (· ≠ '.')).drop 1) with
  | none =>
    rw [timeOf?] at htime
    simp only [htime]
    rfl
  | some t =>
    rw [timeOf?] at htime
    simp only [htime]
    rfl

theorem splitSign_text {p : Plain} (hsign : p.sign ≠ .plus) :
    splitSign p.text = (decide (p.sign = .minus), p.unsigned) := by
  cases hs : p.sign with
  | none =>
    rw [p.text_of_none hs]
    unfold splitSign
    split
    · rename_i rest hminus
      exact absurd hminus (p.unsigned_ne_cons (by decide) rest)
    · rfl
  | plus => exact absurd hs hsign
  | minus =>
    rw [p.text_of_minus hs]
    rfl

theorem parts_text {p : Plain} (hsign : p.sign ≠ .plus) :
    parts p.text = (decide (p.sign = .minus), p.whole, p.places) := by
  simp only [parts, splitSign_text hsign, p.takeWhile_unsigned, p.drop_unsigned]

theorem readSeconds_text (number : List Char → Option α) {p : Plain} (hsign : p.sign ≠ .plus) :
    readSeconds number p.text =
      (secondsOf? (p.sign = .minus) p.whole p.places).elim
        (.error (.ingestion (.invalidTime (String.ofList p.text)))) .ok := by
  have hall : (p.whole ++ p.places).all isDigit = true := List.all_eq_true.2 p.isDigit_digits
  rw [readSeconds_eq number (parts_text hsign), timeOf?, p.isEmpty_eq_false, hall,
    if_neg Bool.false_ne_true, if_pos rfl]

theorem secondsOf?_eq (negative : Bool) (p : Plain) :
    secondsOf? negative p.whole p.places =
      (int64? (totalNanoseconds p)).map fun t => if negative then -t else t := rfl

theorem readSeconds_of_lt (number : List Char → Option α) {p : Plain} (hsign : p.sign ≠ .plus)
    (h : totalNanoseconds p < 2 ^ 63) :
    ∃ t, readSeconds number p.text = .ok t ∧ t.toInt = towardZero (p.toRat * 10 ^ 9) := by
  obtain ⟨t, ht, hvalue⟩ := exists_int64? h
  rw [readSeconds_text number hsign, secondsOf?_eq, ht, towardZero_toRat]
  by_cases hminus : p.sign = .minus
  · refine ⟨-t, by simp [hminus], ?_⟩
    rw [if_pos hminus, toInt_neg_of_nonneg (by omega), hvalue]
  · exact ⟨t, by simp [hminus], by rw [if_neg hminus, hvalue]⟩

theorem readSeconds_of_le (number : List Char → Option α) {p : Plain} (hsign : p.sign ≠ .plus)
    (h : 2 ^ 63 ≤ totalNanoseconds p) :
    readSeconds number p.text = .error (.ingestion (.invalidTime (String.ofList p.text))) := by
  rw [readSeconds_text number hsign, secondsOf?_eq, int64?_of_le h]
  rfl

section words

/-- The front of a text up to a count of its bytes, unless that is past the end or amid a
character. -/
def slice? (cs : List Char) (count : ℕ) : Option (List Char) :=
  let bytes := Text.Utf8.encode cs
  if count ≤ bytes.length then (Text.Utf8.decode (bytes.take count)).toOption else none

def nanosecondsOfBytes? (fraction : List Char) : Option (Option Int64) := do
  let front ← slice? fraction (min (Text.Utf8.encode fraction).length 9)
  return readInt64 (List.rightpad 9 '0' front)

def total? (seconds nanos : Int64) : Option Int64 := do
  let product ← int64? (seconds.toInt * 1000000000)
  int64? (product.toInt + nanos.toInt)

def negated? (t : Int64) : Option Int64 := int64? (-t.toInt)

/-- A time from its digits. Outside is nothing if a slice or a negation is not possible, within if
the time is refused. -/
def secondsOnWords? (negative : Bool) (whole fraction : List Char) : Option (Option Int64) :=
  match if whole.isEmpty then some 0 else readInt64 whole with
  | none => some none
  | some seconds => do
    match (← nanosecondsOfBytes? fraction).bind (total? seconds) with
    | none => return none
    | some total => if negative then (negated? total).map some else return some total

def readSecondsOnWords? (number : List Char → Option α) (token : List Char) :
    Option (Except (EvalError α) Int64) := do
  let (negative, whole, fraction) := parts token
  let time? ←
    if whole.isEmpty && fraction.isEmpty then some none
    else if (whole ++ fraction).all isDigit then secondsOnWords? negative whole fraction
    else some ((number token).bind fun seconds => timestampOf? (seconds * 1e9))
  return time?.elim (.error (.ingestion (.invalidTime (String.ofList token)))) .ok

theorem negated?_of_nonneg {t : Int64} (h : 0 ≤ t.toInt) : negated? t = some (-t) :=
  int64?_eq_some_iff.2 (toInt_neg_of_nonneg h)

variable {ds : List Char}

theorem slice?_of_digits (h : ∀ c ∈ ds, isDigit c = true) {count : ℕ} (hcount : count ≤ ds.length) :
    slice? ds count = some (ds.take count) := by
  have hfront : (Text.Utf8.encode ds).take count = Text.Utf8.encode (ds.take count) := by
    rw [encode_of_digits h, encode_of_digits fun c hc => h c (List.mem_of_mem_take hc),
      List.map_take]
  have hlength : count ≤ (Text.Utf8.encode ds).length := by
    rwa [encode_of_digits h, List.length_map]
  rw [slice?, if_pos hlength, hfront, Text.Utf8.decode_encode]
  rfl

theorem nanosecondsOfBytes?_of_digits (h : ∀ c ∈ ds, isDigit c = true) :
    nanosecondsOfBytes? ds = some (int64? (nanoseconds ds)) := by
  have hfront : ds.take (min ds.length 9) = ds.take 9 := by
    rw [List.take_eq_take_iff, Nat.min_right_comm, Nat.min_self, Nat.min_comm]
  have hpadded : ∀ c ∈ List.rightpad 9 '0' (ds.take 9), isDigit c = true := by
    intro c hc
    rcases List.mem_append.1 hc with hc | hc
    · exact h c (List.mem_of_mem_take hc)
    · rw [List.eq_of_mem_replicate hc]
      decide
  have hvalue : value (List.rightpad 9 '0' (ds.take 9)) = nanoseconds ds := by
    rw [List.rightpad, value_append, value_replicate_zero, List.length_replicate]
    rfl
  have hne : List.rightpad 9 '0' (ds.take 9) ≠ [] := by
    intro hnil
    have := congrArg List.length hnil
    simp at this
  rw [nanosecondsOfBytes?, encode_of_digits h, List.length_map,
    slice?_of_digits h (Nat.min_le_left _ _), hfront, ← hvalue, ← readInt64_of_digits hne hpadded]
  rfl

theorem nanoseconds_lt (h : ∀ c ∈ ds, isDigit c = true) : nanoseconds ds < 10 ^ 9 := by
  rw [nanoseconds_eq h]
  exact Nat.div_lt_of_lt_mul (Nat.mul_lt_mul_of_pos_right (value_lt h) (by positivity))

theorem total?_eq {seconds nanos : Int64} {n m : ℕ} (hn : seconds.toInt = n) (hm : nanos.toInt = m) :
    total? seconds nanos = int64? (n * 1000000000 + m : ℕ) := by
  rw [total?, hn]
  rcases Nat.lt_or_ge (n * 1000000000) (2 ^ 63) with hfits | hlarge
  · obtain ⟨product, hproduct, hvalue⟩ := exists_int64? hfits
    rw [show (n : ℤ) * 1000000000 = (n * 1000000000 : ℕ) by push_cast; rfl, hproduct]
    change int64? (product.toInt + nanos.toInt) = _
    rw [hvalue, hm]
    rfl
  · rw [show (n : ℤ) * 1000000000 = (n * 1000000000 : ℕ) by push_cast; rfl, int64?_of_le hlarge,
      int64?_of_le (hlarge.trans (Nat.le_add_right _ _))]
    rfl

theorem secondsOnWords?_of_digits (negative : Bool) {whole fraction : List Char}
    (hwhole : ∀ c ∈ whole, isDigit c = true) (hfraction : ∀ c ∈ fraction, isDigit c = true) :
    secondsOnWords? negative whole fraction = some (secondsOf? negative whole fraction) := by
  have hread : (if whole.isEmpty then some 0 else readInt64 whole) = int64? (value whole) := by
    by_cases hne : whole = []
    · subst hne
      rfl
    · rw [if_neg (by simpa using hne), readInt64_of_digits hne hwhole]
  obtain ⟨nanos, hnanos, hm⟩ :=
    exists_int64? ((nanoseconds_lt hfraction).trans (show 10 ^ 9 < 2 ^ 63 by decide))
  rw [secondsOnWords?, hread, nanosecondsOfBytes?_of_digits hfraction, hnanos, secondsOf?]
  rcases Nat.lt_or_ge (value whole) (2 ^ 63) with hfits | hlarge
  · obtain ⟨seconds, hseconds, hn⟩ := exists_int64? hfits
    have htotal := total?_eq hn hm
    rw [hseconds]
    simp only [Option.bind_eq_bind, Option.bind_some, htotal]
    cases hsum : int64? (value whole * 1000000000 + nanoseconds fraction : ℕ) with
    | none => simp
    | some total =>
      have hnonneg : 0 ≤ total.toInt := by
        rw [int64?_eq_some_iff.1 hsum]
        positivity
      cases negative
      · simp
      · simp [negated?_of_nonneg hnonneg]
  · rw [int64?_of_le hlarge, int64?_of_le (by omega)]
    rfl

/-- On every token, no slice, product, sum or negation is without a result. -/
theorem readSecondsOnWords?_eq (number : List Char → Option α) (token : List Char) :
    readSecondsOnWords? number token = some (readSeconds number token) := by
  obtain ⟨⟨negative, whole, fraction⟩, hparts⟩ : ∃ ps, parts token = ps := ⟨_, rfl⟩
  rw [readSeconds_eq number hparts, readSecondsOnWords?, hparts, timeOf?]
  simp only
  split
  · rfl
  · split
    · rename_i hall
      have hdigit := List.all_eq_true.1 hall
      rw [secondsOnWords?_of_digits negative (fun c hc => hdigit c (List.mem_append_left _ hc))
        fun c hc => hdigit c (List.mem_append_right _ hc)]
      rfl
    · rfl

end words

theorem natAbs_towardZero_toRat (p : Plain) :
    (towardZero (p.toRat * 10 ^ 9)).natAbs = totalNanoseconds p := by
  rw [towardZero_toRat]
  split
  · rw [Int.natAbs_neg, Int.natAbs_natCast]
  · exact Int.natAbs_natCast _

theorem toInt_of_readSeconds (number : List Char → Option α) {p : Plain} {t : Int64}
    (hsign : p.sign ≠ .plus) (h : readSeconds number p.text = .ok t) :
    t.toInt = towardZero (p.toRat * 10 ^ 9) := by
  rcases Nat.lt_or_ge (totalNanoseconds p) (2 ^ 63) with hfits | hlarge
  · obtain ⟨u, hu, hvalue⟩ := readSeconds_of_lt number hsign hfits
    rw [hu] at h
    obtain rfl := Except.ok.inj h
    exact hvalue
  · rw [readSeconds_of_le number hsign hlarge] at h
    cases h

/-- A plain decimal without a plus sign is read as its value in nanoseconds, cut off toward zero, if
that has the magnitude of a word, and refused otherwise; so of two accepted texts the one of the
greater number has no smaller timestamp. On any token at all, the reading on words has a result and
it is this one. -/
theorem readSeconds_exact (number : List Char → Option α) :
    (∀ p : Plain, p.sign ≠ .plus →
      ((towardZero (p.toRat * 10 ^ 9)).natAbs ≤ 2 ^ 63 - 1 →
        ∃ t, readSeconds number p.text = .ok t ∧ t.toInt = towardZero (p.toRat * 10 ^ 9)) ∧
      (2 ^ 63 - 1 < (towardZero (p.toRat * 10 ^ 9)).natAbs →
        ∃ fault, readSeconds number p.text = .error (.ingestion fault))) ∧
    (∀ (p q : Plain) (t u : Int64), p.sign ≠ .plus → q.sign ≠ .plus → p.toRat ≤ q.toRat →
      readSeconds number p.text = .ok t → readSeconds number q.text = .ok u → t ≤ u) ∧
    ∀ token, readSecondsOnWords? number token = some (readSeconds number token) := by
  refine ⟨fun p hsign => ?_, fun p q t u hp hq hle ht hu => ?_, readSecondsOnWords?_eq number⟩
  · rw [natAbs_towardZero_toRat]
    exact ⟨fun h => readSeconds_of_lt number hsign (by omega),
      fun h => ⟨_, readSeconds_of_le number hsign (by omega)⟩⟩
  · rw [Int64.le_iff_toInt_le, toInt_of_readSeconds number hp ht, toInt_of_readSeconds number hq hu]
    exact towardZero_le (mul_le_mul_of_nonneg_right hle (by positivity))

def minusQuarter : Plain :=
  ⟨.minus, ['1'], some ['2', '5'], List.all_eq_true.1 rfl, List.all_eq_true.1 rfl, by decide⟩

def nearlyTwoNanoseconds : Plain :=
  ⟨.none, [], some ['0', '0', '0', '0', '0', '0', '0', '0', '1', '9'], List.all_eq_true.1 rfl,
    List.all_eq_true.1 rfl, by decide⟩

def threeCenturies : Plain :=
  ⟨.none, ['9', '2', '2', '3', '3', '7', '2', '0', '3', '7'], none, List.all_eq_true.1 rfl,
    isDigit_no_places, by decide⟩

theorem readSeconds_exact_minusQuarter :
    ∃ t u : Int64, readSeconds Decimal.readFloat "-1.25".toList = .ok t ∧ t.toInt = -1250000000 ∧
      readSeconds Decimal.readFloat ".0000000019".toList = .ok u ∧ u.toInt = 1 ∧ t ≤ u ∧
      ∃ fault, readSeconds Decimal.readFloat "9223372037".toList = .error (.ingestion fault) := by
  obtain ⟨hread, hmono, -⟩ := readSeconds_exact Decimal.readFloat
  have hcut (p : Plain) : (towardZero (p.toRat * 10 ^ 9)).natAbs = totalNanoseconds p :=
    natAbs_towardZero_toRat p
  obtain ⟨t, ht, htime⟩ := (hread minusQuarter (by decide)).1 (by rw [hcut]; decide)
  obtain ⟨u, hu, hutime⟩ := (hread nearlyTwoNanoseconds (by decide)).1 (by rw [hcut]; decide)
  obtain ⟨fault, hfault⟩ := (hread threeCenturies (by decide)).2 (by rw [hcut]; decide)
  have hle : minusQuarter.toRat ≤ nearlyTwoNanoseconds.toRat :=
    (neg_nonpos.2 minusQuarter.magnitude_nonneg).trans nearlyTwoNanoseconds.magnitude_nonneg
  refine ⟨t, u, ht, ?_, hu, ?_, hmono _ _ t u (by decide) (by decide) hle ht hu, fault, hfault⟩
  · rw [htime, towardZero_toRat]
    decide
  · rw [hutime, towardZero_toRat]
    decide

end Table
end TrackingScore
