import TrackingScore.Proofs.Tokens
import TrackingScore.Proofs.Utf8RoundTrip
import TrackingScore.Table.Field

/-!
Decimal text read back. A natural number in decimal digits reads as itself, and a number of
nanoseconds written as seconds with nine decimal places reads as that timestamp.
-/

namespace TrackingScore.Decimal

theorem toNat_of_isDigit {c : Char} (h : isDigit c = true) : 48 ≤ c.toNat ∧ c.toNat ≤ 57 := by
  simp only [isDigit, Bool.and_eq_true, decide_eq_true_eq, Char.le_def, UInt32.le_iff_toNat_le]
    at h
  exact h

theorem solid_of_digits {digits : List Char} (h : ∀ c ∈ digits, isDigit c = true) :
    Text.Solid digits := by
  intro c hc
  have hcode := toNat_of_isDigit (h c hc)
  refine Bool.eq_false_iff.2 fun hblank => ?_
  simp only [Text.isBlank, Text.blankRanges, List.any_cons, List.any_nil, Bool.or_eq_true,
    Bool.and_eq_true, decide_eq_true_eq, Bool.false_eq_true, or_false] at hblank
  omega

theorem encode_of_digits {digits : List Char} (h : ∀ c ∈ digits, isDigit c = true) :
    Text.Utf8.encode digits = digits.map Text.ascii := by
  induction digits with
  | nil => rfl
  | cons c digits ih =>
    have hc : c.toNat < 0x80 := Nat.lt_of_le_of_lt (toNat_of_isDigit (h c (by simp))).2 (by decide)
    rw [Text.Utf8.encode_cons_ascii hc, ih fun d hd => h d (by simp [hd]), List.map_cons]

theorem isDigit_of_mem_toDigits {n : Nat} {c : Char} (h : c ∈ Nat.toDigits 10 n) :
    isDigit c = true :=
  Nat.isDigit_of_mem_toDigits (by decide) (by decide) h

@[simp] theorem value_toDigits (n : Nat) : value (Nat.toDigits 10 n) = n :=
  Nat.ofDigitChars_toDigits (by decide) (by decide)

theorem natural?_of_digits {digits : List Char} (hne : digits ≠ [])
    (h : ∀ c ∈ digits, isDigit c = true) : natural? digits = some (value digits) := by
  rw [natural?, List.all_eq_true.2 h]
  simp [hne]

theorem readInt64_of_digits {digits : List Char} (hne : digits ≠ [])
    (h : ∀ c ∈ digits, isDigit c = true) : readInt64 digits = int64? (value digits) := by
  unfold readInt64
  split
  · exact absurd (h '-' (by simp)) (by decide)
  · exact absurd (h '+' (by simp)) (by decide)
  · rw [natural?_of_digits hne h]
    rfl

theorem toList_toString_int (n : Int) :
    (toString n).toList =
      if 0 ≤ n then Nat.toDigits 10 n.natAbs else '-' :: Nat.toDigits 10 n.natAbs := by
  change (Int.repr n).toList = _
  rw [Int.repr_eq_if]
  split
  · rw [show n.toNat = n.natAbs by omega, Nat.toList_repr]
  · rw [show (-n).toNat = n.natAbs by omega, String.toList_append, Nat.toList_repr]
    rfl

theorem readInt64_toString_int (n : Int) : readInt64 (toString n).toList = int64? n := by
  rw [toList_toString_int]
  have hdigits : ∀ c ∈ Nat.toDigits 10 n.natAbs, isDigit c = true :=
    fun _ => isDigit_of_mem_toDigits
  split
  · have hvalue : ((n.natAbs : Nat) : Int) = n := by omega
    rw [readInt64_of_digits Nat.toDigits_ne_nil hdigits, value_toDigits, hvalue]
  · have hvalue : -((n.natAbs : Nat) : Int) = n := by omega
    rw [readInt64, natural?_of_digits Nat.toDigits_ne_nil hdigits, value_toDigits]
    change int64? (-((n.natAbs : Nat) : Int)) = int64? n
    rw [hvalue]

theorem readInt64_toString (t : Int64) : readInt64 (toString t).toList = some t := by
  change readInt64 (toString t.toInt).toList = some t
  rw [readInt64_toString_int, int64?_toInt]

end TrackingScore.Decimal

namespace TrackingScore.Table

open Scalar

variable {α : Type} [Scalar α]

theorem readTimestamp_toDigits (number : List Char → Option α) {n : Nat} {t : Int64}
    (h : t.toInt = n) : readTimestamp number (Nat.toDigits 10 n) = .ok t := by
  have hdigits : ∀ c ∈ Nat.toDigits 10 n, Decimal.isDigit c = true :=
    fun _ => Decimal.isDigit_of_mem_toDigits
  rw [readTimestamp, Text.trim_of_solid (Decimal.solid_of_digits hdigits),
    Decimal.readInt64_of_digits Nat.toDigits_ne_nil hdigits, Decimal.value_toDigits,
    int64?_eq_some_iff.2 h]

def nineDigits (n : Nat) : List Char := List.leftpad 9 '0' (Nat.toDigits 10 n)

def secondsText (n : Nat) : List Char :=
  Nat.toDigits 10 (n / 1000000000) ++ '.' :: nineDigits (n % 1000000000)

theorem isDigit_of_mem_nineDigits {n : Nat} {c : Char} (h : c ∈ nineDigits n) :
    Decimal.isDigit c = true := by
  rcases List.mem_append.1 h with h | h
  · rw [List.eq_of_mem_replicate h]
    decide
  · exact Decimal.isDigit_of_mem_toDigits h

theorem solid_secondsText (n : Nat) : Text.Solid (secondsText n) := by
  intro c hc
  rcases List.mem_append.1 hc with hc | hc
  · exact Decimal.solid_of_digits (fun _ => Decimal.isDigit_of_mem_toDigits) c hc
  · rcases List.mem_cons.1 hc with rfl | hc
    · decide
    · exact Decimal.solid_of_digits (fun _ => isDigit_of_mem_nineDigits) c hc

theorem length_nineDigits {n : Nat} (h : n < 1000000000) : (nineDigits n).length = 9 := by
  have hlength : (Nat.toDigits 10 n).length ≤ 9 :=
    (Nat.length_toDigits_le_iff (by decide) (by decide)).2 (by simpa using h)
  rw [nineDigits, List.length_leftpad, max_eq_left hlength]

theorem value_nineDigits (n : Nat) : Decimal.value (nineDigits n) = n := by
  change Nat.ofDigitChars 10 (List.replicate _ '0' ++ Nat.toDigits 10 n) 0 = n
  rw [Nat.ofDigitChars_append, Nat.ofDigitChars_replicate_zero, Nat.mul_zero]
  exact Decimal.value_toDigits n

theorem nanoseconds_nineDigits {n : Nat} (h : n < 1000000000) :
    nanoseconds (nineDigits n) = n := by
  rw [nanoseconds, List.take_of_length_le (length_nineDigits h).le, length_nineDigits h,
    value_nineDigits]
  exact Nat.mul_one n

theorem secondsOf?_nineDigits (negative : Bool) (n : Nat) :
    secondsOf? negative (Nat.toDigits 10 (n / 1000000000)) (nineDigits (n % 1000000000)) =
      (int64? n).map fun t => if negative then -t else t := by
  have hn : n / 1000000000 * 1000000000 + n % 1000000000 = n := Nat.div_add_mod' n _
  rw [secondsOf?, Decimal.value_toDigits, nanoseconds_nineDigits (Nat.mod_lt _ (by decide)), hn]

theorem readSeconds_of_digits (number : List Char → Option α) {whole fraction : List Char}
    {t : Int64} (hne : whole ≠ []) (hwhole : ∀ c ∈ whole, Decimal.isDigit c = true)
    (hfraction : ∀ c ∈ fraction, Decimal.isDigit c = true)
    (h : secondsOf? false whole fraction = some t) :
    readSeconds number (whole ++ '.' :: fraction) = .ok t := by
  have hpoint : ∀ c ∈ whole, decide (c ≠ '.') = true := fun c hc =>
    decide_eq_true fun hpoint => absurd (hwhole '.' (hpoint ▸ hc)) (by decide)
  have htake : (whole ++ '.' :: fraction).takeWhile (· ≠ '.') = whole := by
    rw [List.takeWhile_append_of_pos hpoint, List.takeWhile_cons_of_neg (by simp), List.append_nil]
  have hdrop : ((whole ++ '.' :: fraction).dropWhile (· ≠ '.')).drop 1 = fraction := by
    rw [List.dropWhile_append_of_pos hpoint, List.dropWhile_cons_of_neg (by simp)]
    rfl
  have hall : (whole ++ fraction).all Decimal.isDigit = true := by
    rw [List.all_append, List.all_eq_true.2 hwhole, List.all_eq_true.2 hfraction]
    rfl
  unfold readSeconds
  split
  rename_i negative digits heq
  split at heq
  · rename_i rest hminus
    obtain ⟨c, whole, rfl⟩ := List.exists_cons_of_ne_nil hne
    obtain ⟨rfl, -⟩ := List.cons.inj hminus
    exact absurd (hwhole '-' (by simp)) (by decide)
  · cases heq
    have hempty : (whole.isEmpty && fraction.isEmpty) = false := by simp [hne]
    simp only [htake, hdrop, hempty, hall, h, if_true, Bool.false_eq_true, if_false]

/-- A timestamp that is not negative, written as seconds, is read as that timestamp. -/
theorem readSeconds_secondsText (number : List Char → Option α) {n : Nat} {t : Int64}
    (h : t.toInt = n) : readSeconds number (secondsText n) = .ok t := by
  refine readSeconds_of_digits number Nat.toDigits_ne_nil
    (fun _ => Decimal.isDigit_of_mem_toDigits) (fun _ => isDigit_of_mem_nineDigits) ?_
  rw [secondsOf?_nineDigits, int64?_eq_some_iff.2 h]
  rfl

end TrackingScore.Table
