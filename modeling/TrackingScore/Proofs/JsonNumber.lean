import TrackingScore.Json.Draft
import TrackingScore.Json.Value
import TrackingScore.Proofs.PlainDecimal
import TrackingScore.Proofs.Utf8RoundTrip

/-!
Texts of numbers by the grammar of JSON. Each is read as its parts, up to where it ends.
-/

namespace TrackingScore

theorem Decimal.eq_nil_of_toDigits_eq_zero_cons {n : Nat} {rest : List Char}
    (h : Nat.toDigits 10 n = '0' :: rest) : rest = [] := by
  by_contra hne
  have hdigits : ∀ c ∈ rest, isDigit c = true := fun c hc =>
    isDigit_of_mem_toDigits (h ▸ List.mem_cons_of_mem _ hc)
  have hvalue : value rest = n := by rw [← value_toDigits n, h]; rfl
  have hlength := (Nat.length_toDigits_le_iff (by decide) (List.length_pos_of_ne_nil hne)).2
    (hvalue ▸ value_lt hdigits)
  rw [h, List.length_cons] at hlength
  omega

namespace Json

open Text (ascii isDigitByte)
open Text.Utf8 (encode encode_cons_ascii)

structure ExponentText where
  capital : Bool
  minus? : Option Bool
  digits : List Char
  digits_ne_nil : digits ≠ []
  isDigit_digits : ∀ c ∈ digits, Decimal.isDigit c = true

namespace ExponentText

def sign (e : ExponentText) : List Char :=
  match e.minus? with
  | none => []
  | some minus => [if minus then '-' else '+']

def chars (e : ExponentText) : List Char :=
  (if e.capital then 'E' else 'e') :: (e.sign ++ e.digits)

def value (e : ExponentText) : Int :=
  if e.minus? = some true then -(Decimal.value e.digits : Int) else Decimal.value e.digits

end ExponentText

structure NumberText where
  negative : Bool
  whole : List Char
  fraction : List Char
  exponent : Option ExponentText
  whole_ne_nil : whole ≠ []
  isDigit_whole : ∀ c ∈ whole, Decimal.isDigit c = true
  no_leading_zero : ∀ rest, whole = '0' :: rest → rest = []
  isDigit_fraction : ∀ c ∈ fraction, Decimal.isDigit c = true

namespace NumberText

def minus (n : NumberText) : List Char := if n.negative then ['-'] else []

def places (n : NumberText) : List Char := if n.fraction = [] then [] else '.' :: n.fraction

def power (n : NumberText) : List Char :=
  match n.exponent with
  | none => []
  | some e => e.chars

def chars (n : NumberText) : List Char := n.minus ++ (n.whole ++ (n.places ++ n.power))

def string (n : NumberText) : String := String.ofList n.chars

def numeral (n : NumberText) : Numeral :=
  ⟨n.negative, n.whole, n.fraction, n.exponent.map ExponentText.value⟩

end NumberText

/-! ## Rows of digits -/

section digits

variable {digits : List Char} {rest : List UInt8}

theorem toNat_ascii_of_isDigit {c : Char} (h : Decimal.isDigit c = true) :
    (ascii c).toNat = c.toNat :=
  Text.Utf8.toNat_ascii (by have := Decimal.toNat_of_isDigit h; omega)

theorem isDigitByte_ascii {c : Char} (h : Decimal.isDigit c = true) :
    isDigitByte (ascii c) = true := by
  have hcode := Decimal.toNat_of_isDigit h
  rw [← toNat_ascii_of_isDigit h] at hcode
  simp only [isDigitByte, Bool.and_eq_true, decide_eq_true_eq, UInt8.le_iff_toNat_le]
  exact hcode

theorem ascii_ne_of_isDigit {c : Char} (h : Decimal.isDigit c = true) {b : UInt8}
    (hb : isDigitByte b = false) : ascii c ≠ b := by
  rintro rfl
  rw [isDigitByte_ascii h] at hb
  cases hb

def NoDigit (rest : List UInt8) : Prop := ∀ b ∈ rest.head?, isDigitByte b = false

theorem takeWhile_digits (h : ∀ c ∈ digits, Decimal.isDigit c = true) (hrest : NoDigit rest) :
    (encode digits ++ rest).takeWhile isDigitByte = digits.map ascii ∧
      (encode digits ++ rest).dropWhile isDigitByte = rest := by
  have hall : ∀ b ∈ digits.map ascii, isDigitByte b = true :=
    List.forall_mem_map.2 fun c hc => isDigitByte_ascii (h c hc)
  rw [Decimal.encode_of_digits h, List.takeWhile_append_of_pos hall, List.dropWhile_append_of_pos hall]
  cases rest with
  | nil => simp
  | cons b rest =>
    have hb : isDigitByte b = false := hrest b rfl
    simp [hb]

theorem digitChars_digits (h : ∀ c ∈ digits, Decimal.isDigit c = true) (hrest : NoDigit rest) :
    Draft.digitChars (encode digits ++ rest) = digits := by
  have hback : ∀ c ∈ digits, Char.ofNat (ascii c).toNat = id c := fun c hc => by
    rw [toNat_ascii_of_isDigit (h c hc), Char.ofNat_toNat, id]
  rw [Draft.digitChars, (takeWhile_digits h hrest).1, List.map_map]
  exact (List.map_congr_left hback).trans (List.map_id digits)

theorem dropWhile_digits (h : ∀ c ∈ digits, Decimal.isDigit c = true) (hrest : NoDigit rest) :
    (encode digits ++ rest).dropWhile isDigitByte = rest :=
  (takeWhile_digits h hrest).2

theorem exists_digit (rest : List UInt8) (hne : digits ≠ []) (h : ∀ c ∈ digits, Decimal.isDigit c = true) :
    ∃ c tail, Decimal.isDigit c = true ∧ encode digits ++ rest = ascii c :: tail := by
  obtain ⟨c, digits, rfl⟩ := List.exists_cons_of_ne_nil hne
  refine ⟨c, digits.map ascii ++ rest, h c List.mem_cons_self, ?_⟩
  rw [Decimal.encode_of_digits h]
  rfl

end digits

/-! ## Parts of a number -/

section parts

variable {rest : List UInt8}

theorem readExponent_encode (e : ExponentText) (hrest : NoDigit rest) :
    Draft.readExponent (encode (e.sign ++ e.digits) ++ rest) = .ok (e.value, rest) := by
  have hread : Draft.digitChars (encode e.digits ++ rest) = e.digits :=
    digitChars_digits e.isDigit_digits hrest
  have hdrop := dropWhile_digits e.isDigit_digits hrest
  have hne := e.digits_ne_nil
  unfold Draft.readExponent ExponentText.value ExponentText.sign
  cases e.minus? with
  | none =>
    obtain ⟨c, tail, hc, htext⟩ := exists_digit rest hne e.isDigit_digits
    have hminus : ascii c ≠ ascii '-' := ascii_ne_of_isDigit hc (by decide)
    have hplus : ascii c ≠ ascii '+' := ascii_ne_of_isDigit hc (by decide)
    rw [htext] at hread hdrop
    rw [List.nil_append, htext]
    simp [hminus, hplus, hread, hdrop, hne]
  | some minus =>
    have hsigns : ascii '+' ≠ ascii '-' := by decide
    cases minus <;> rw [List.singleton_append, encode_cons_ascii (by decide)] <;>
      simp [hsigns, hread, hdrop, hne]

theorem readFraction_places (n : NumberText) (hrest : NoDigit rest)
    (hpoint : ∀ b ∈ rest.head?, b ≠ ascii '.') :
    Draft.readFraction (encode n.places ++ rest) = .ok (n.fraction, rest) := by
  rw [NumberText.places]
  split
  · rename_i hnone
    rw [hnone]
    cases rest with
    | nil => rfl
    | cons b rest => simp [Draft.readFraction, hpoint b rfl, encode]
  · rename_i hne
    rw [encode_cons_ascii (by decide)]
    simp [Draft.readFraction, digitChars_digits n.isDigit_fraction hrest,
      dropWhile_digits n.isDigit_fraction hrest, hne]

theorem readWhole_whole (n : NumberText) (hrest : NoDigit rest) :
    Draft.readWhole (encode n.whole ++ rest) = .ok (n.whole, rest) := by
  simp only [Draft.readWhole, digitChars_digits n.isDigit_whole hrest,
    dropWhile_digits n.isDigit_whole hrest]
  split
  · rename_i hnone
    exact absurd hnone n.whole_ne_nil
  · rename_i hzero
    exact absurd (n.no_leading_zero _ hzero) (by simp)
  · rfl

end parts

/-- Nothing follows that could still be part of a number. -/
def NumberEnds (rest : List UInt8) : Prop :=
  ∀ b ∈ rest.head?, isDigitByte b = false ∧ b ≠ ascii '.' ∧ b ≠ ascii 'e' ∧ b ≠ ascii 'E'

namespace NumberText

variable (n : NumberText) {rest : List UInt8}

theorem encode_chars_exponent (e : ExponentText) :
    ∃ b, (b = ascii 'e' ∨ b = ascii 'E') ∧ encode e.chars = b :: encode (e.sign ++ e.digits) := by
  rw [ExponentText.chars]
  cases e.capital with
  | false => exact ⟨ascii 'e', .inl rfl, encode_cons_ascii (by decide) _⟩
  | true => exact ⟨ascii 'E', .inr rfl, encode_cons_ascii (by decide) _⟩

theorem ends_power (h : NumberEnds rest) :
    NoDigit (encode n.power ++ rest) ∧ ∀ b ∈ (encode n.power ++ rest).head?, b ≠ ascii '.' := by
  rw [power]
  cases n.exponent with
  | none => exact ⟨fun b hb => (h b hb).1, fun b hb => (h b hb).2.1⟩
  | some e =>
    obtain ⟨letter, hletter, htext⟩ := encode_chars_exponent e
    simp only [htext, NoDigit, List.cons_append, List.head?_cons, Option.mem_some_iff, forall_eq']
    rcases hletter with rfl | rfl <;> decide

theorem ends_places (h : NumberEnds rest) :
    NoDigit (encode n.places ++ (encode n.power ++ rest)) := by
  rw [places]
  split
  · exact (n.ends_power h).1
  · rw [encode_cons_ascii (by decide)]
    simp only [NoDigit, List.cons_append, List.head?_cons, Option.mem_some_iff, forall_eq']
    decide

theorem readMagnitude_encode (h : NumberEnds rest) :
    Draft.readMagnitude n.negative (encode (n.whole ++ (n.places ++ n.power)) ++ rest) =
      .ok (n.numeral, rest) := by
  have hpower := n.ends_power h
  simp only [Text.Utf8.encode_append, List.append_assoc, Draft.readMagnitude,
    readWhole_whole n (n.ends_places h), readFraction_places n hpower.1 hpower.2, bind, Except.bind]
  rw [numeral, power]
  cases n.exponent with
  | none =>
    cases rest with
    | nil => rfl
    | cons b rest =>
      obtain ⟨-, -, hsmall, hcapital⟩ := h b rfl
      simp [encode, hsmall, hcapital, pure, Except.pure]
  | some e =>
    have hexponent := readExponent_encode e fun b hb => (h b hb).1
    obtain ⟨letter, hletter, htext⟩ := encode_chars_exponent e
    simp only [htext, List.cons_append, hexponent]
    rcases hletter with rfl | rfl <;> rfl

/-- A number is read as its parts, whatever stands behind it that does not go on with it. -/
theorem readNumber_encode (h : NumberEnds rest) :
    Draft.readNumber (encode n.chars ++ rest) = .ok (n.numeral, rest) := by
  have hread := n.readMagnitude_encode h
  rw [chars, minus]
  cases hsign : n.negative with
  | true =>
    rw [hsign] at hread
    rw [if_pos rfl, List.singleton_append, encode_cons_ascii (by decide)]
    simpa [Draft.readNumber] using hread
  | false =>
    rw [hsign] at hread
    obtain ⟨c, tail, hc, htext⟩ := exists_digit
      (encode (n.places ++ n.power) ++ rest) n.whole_ne_nil n.isDigit_whole
    have hminus : ascii c ≠ ascii '-' := ascii_ne_of_isDigit hc (by decide)
    rw [Text.Utf8.encode_append, List.append_assoc, htext] at hread
    rw [if_neg (by decide), List.nil_append, Text.Utf8.encode_append, List.append_assoc, htext]
    simpa [Draft.readNumber, hminus] using hread

/-! ## Whole numbers -/

theorem isDigit_toDigits (n : Nat) : ∀ c ∈ Nat.toDigits 10 n, Decimal.isDigit c = true :=
  fun _ => Decimal.isDigit_of_mem_toDigits

theorem isDigit_no_fraction : ∀ c ∈ ([] : List Char), Decimal.isDigit c = true :=
  fun _ h => absurd h List.not_mem_nil

theorem no_leading_zero_toDigits (n : Nat) :
    ∀ rest, Nat.toDigits 10 n = '0' :: rest → rest = [] :=
  fun _ => Decimal.eq_nil_of_toDigits_eq_zero_cons

def ofInt (i : Int) : NumberText where
  negative := decide (i < 0)
  whole := Nat.toDigits 10 i.natAbs
  fraction := []
  exponent := none
  whole_ne_nil := Nat.toDigits_ne_nil
  isDigit_whole := isDigit_toDigits i.natAbs
  no_leading_zero := no_leading_zero_toDigits i.natAbs
  isDigit_fraction := isDigit_no_fraction

theorem string_ofInt (i : Int) : (ofInt i).string = toString i := by
  rw [← String.toList_inj, Decimal.toList_toString_int, string, String.toList_ofList, chars]
  rcases lt_or_ge i 0 with hneg | hpos
  · simp [ofInt, minus, places, power, hneg]
  · simp [ofInt, minus, places, power, hpos, not_lt.2 hpos]

theorem integer?_ofInt (i : Int) :
    (ofInt i).numeral.integer? =
      if i < 0 then (int64? i).map Int64.toInt else (uint64? i.toNat).map fun n => (n.toNat : Int) := by
  unfold Numeral.integer?
  simp only [numeral, ofInt, List.isEmpty_nil, Option.map_none, Option.isNone_none, Bool.and_self,
    if_true, Decimal.value_toDigits, decide_eq_true_eq]
  rcases lt_or_ge i 0 with hneg | hpos
  · have hmagnitude : -(i.natAbs : Int) = i := by omega
    rw [if_pos hneg, if_pos (by omega), if_pos hneg, hmagnitude]
  · rw [if_neg (not_lt.2 hpos), if_neg (not_lt.2 hpos), ← Int.toNat_of_nonneg hpos, Int.natAbs_natCast,
      Int.toNat_natCast]

theorem integer?_ofInt64 (t : Int64) : (ofInt t.toInt).numeral.integer? = some t.toInt := by
  rw [integer?_ofInt]
  split
  · rw [int64?_toInt, Option.map_some]
  · have hrange := Int64.toInt_lt t
    have hword : t.toInt.toNat < UInt64.size := by
      change t.toInt.toNat < 2 ^ 64
      omega
    have hvalue : (UInt64.ofNat t.toInt.toNat).toNat = t.toInt.toNat :=
      UInt64.toNat_ofNat_of_lt hword
    rw [uint64?_eq_some_iff.2 hvalue, Option.map_some, hvalue]
    congr 1
    omega

theorem integer?_ofUInt64 (n : UInt64) : (ofInt n.toNat).numeral.integer? = some (n.toNat : Int) := by
  rw [integer?_ofInt, if_neg (by omega), Int.toNat_natCast, uint64?_toNat, Option.map_some]

end NumberText
end Json
end TrackingScore
