import Mathlib.Algebra.Order.Floor.Ring
import Mathlib.Algebra.Order.Ring.Rat
import Mathlib.Data.Rat.Floor
import Mathlib.Tactic.FieldSimp
import Mathlib.Tactic.Ring
import TrackingScore.Proofs.DecimalRoundTrip

/-!
Decimal text without an exponent: an optional sign, then digits with at most one point among or
around them. It stands for a rational number.
-/

namespace TrackingScore.Decimal

section digits

variable {ds es : List Char}

theorem value_append (ds es : List Char) :
    value (ds ++ es) = value ds * 10 ^ es.length + value es := by
  change Nat.ofDigitChars 10 (ds ++ es) 0 = _
  rw [Nat.ofDigitChars_append, Nat.ofDigitChars_eq_ofDigitChars_zero, Nat.mul_comm]
  rfl

theorem value_singleton (c : Char) : value [c] = digitValue c := by
  rw [value, List.foldl_cons, List.foldl_nil, Nat.mul_zero, Nat.zero_add]

theorem digitValue_lt {c : Char} (h : isDigit c = true) : digitValue c < 10 := by
  have hcode := toNat_of_isDigit h
  change c.toNat - 48 < 10
  omega

theorem value_lt (h : ∀ c ∈ ds, isDigit c = true) : value ds < 10 ^ ds.length := by
  induction ds using List.reverseRecOn with
  | nil => decide
  | append_singleton ds c ih =>
    have hlast := digitValue_lt (h c (by simp))
    have hfront := ih fun d hd => h d (by simp [hd])
    rw [value_append, value_singleton, List.length_append, List.length_singleton, pow_succ]
    omega

theorem value_replicate_zero (n : Nat) : value (List.replicate n '0') = 0 :=
  (Nat.ofDigitChars_replicate_zero (b := 10)).trans (Nat.mul_zero _)

end digits

inductive Sign where
  | none
  | plus
  | minus
  deriving Repr, DecidableEq

def Sign.text : Sign → List Char
  | .none => []
  | .plus => ['+']
  | .minus => ['-']

def Sign.apply (sign : Sign) (x : ℚ) : ℚ := if sign = .minus then -x else x

structure Plain where
  sign : Sign
  whole : List Char
  fraction : Option (List Char)
  isDigit_whole : ∀ c ∈ whole, isDigit c = true
  isDigit_fraction : ∀ c ∈ fraction.getD [], isDigit c = true
  digits_ne_nil : whole ++ fraction.getD [] ≠ []

theorem isDigit_no_places : ∀ c ∈ (none : Option (List Char)).getD [], isDigit c = true :=
  List.all_eq_true.1 rfl

namespace Plain

variable (p : Plain)

def places : List Char := p.fraction.getD []

def digits : List Char := p.whole ++ p.places

def unsigned : List Char :=
  match p.fraction with
  | none => p.whole
  | some places => p.whole ++ '.' :: places

def text : List Char := p.sign.text ++ p.unsigned

def magnitude : ℚ := value p.whole + value p.places / 10 ^ p.places.length

def toRat : ℚ := p.sign.apply p.magnitude

theorem text_of_none (h : p.sign = .none) : p.text = p.unsigned := by
  rw [text, h]
  rfl

theorem text_of_plus (h : p.sign = .plus) : p.text = '+' :: p.unsigned := by
  rw [text, h]
  rfl

theorem text_of_minus (h : p.sign = .minus) : p.text = '-' :: p.unsigned := by
  rw [text, h]
  rfl

theorem isDigit_places : ∀ c ∈ p.places, isDigit c = true := p.isDigit_fraction

theorem isDigit_digits : ∀ c ∈ p.digits, isDigit c = true := by
  intro c hc
  rcases List.mem_append.1 hc with hc | hc
  · exact p.isDigit_whole c hc
  · exact p.isDigit_places c hc

theorem magnitude_eq : p.magnitude = value p.digits / 10 ^ p.places.length := by
  rw [magnitude, digits, value_append]
  push_cast
  field_simp

theorem magnitude_nonneg : 0 ≤ p.magnitude := by
  rw [magnitude_eq]
  positivity

theorem isEmpty_eq_false : (p.whole.isEmpty && p.places.isEmpty) = false := by
  have hne := p.digits_ne_nil
  rw [Ne, List.append_eq_nil_iff, not_and_or] at hne
  rcases hne with hne | hne
  · simp [hne]
  · simp [places, hne]

theorem ne_point_of_isDigit {c : Char} (h : isDigit c = true) : c ≠ '.' := by
  rintro rfl
  exact absurd h (by decide)

theorem takeWhile_unsigned : p.unsigned.takeWhile (· ≠ '.') = p.whole := by
  have hwhole : ∀ c ∈ p.whole, decide (c ≠ '.') = true := fun c hc =>
    decide_eq_true (ne_point_of_isDigit (p.isDigit_whole c hc))
  unfold unsigned
  split
  · exact List.takeWhile_eq_self_iff.2 hwhole
  · rw [List.takeWhile_append_of_pos hwhole, List.takeWhile_cons_of_neg (by simp),
      List.append_nil]

theorem drop_unsigned : (p.unsigned.dropWhile (· ≠ '.')).drop 1 = p.places := by
  have hwhole : ∀ c ∈ p.whole, decide (c ≠ '.') = true := fun c hc =>
    decide_eq_true (ne_point_of_isDigit (p.isDigit_whole c hc))
  unfold unsigned places
  split
  · rename_i hnone
    rw [List.dropWhile_eq_nil_iff.2 hwhole, hnone]
    rfl
  · rename_i places hsome
    rw [List.dropWhile_append_of_pos hwhole, List.dropWhile_cons_of_neg (by simp), hsome]
    rfl

theorem mem_unsigned {c : Char} (h : c ∈ p.unsigned) : isDigit c = true ∨ c = '.' := by
  unfold unsigned at h
  split at h
  · exact .inl (p.isDigit_whole c h)
  · rename_i places hsome
    rcases List.mem_append.1 h with hc | hc
    · exact .inl (p.isDigit_whole c hc)
    · rcases List.mem_cons.1 hc with rfl | hc
      · exact .inr rfl
      · exact .inl (p.isDigit_fraction c (by rw [hsome]; exact hc))

theorem unsigned_ne_cons {c : Char} (hc : ¬(isDigit c = true ∨ c = '.')) (rest : List Char) :
    p.unsigned ≠ c :: rest := fun h => hc (p.mem_unsigned (h ▸ List.mem_cons_self))

theorem solid_text : Text.Solid p.text := by
  intro c hc
  rcases List.mem_append.1 hc with hc | hc
  · have hsign : ∀ s : Sign, Text.Solid s.text := by
      rintro (_ | _ | _) <;> decide
    exact hsign p.sign c hc
  · rcases p.mem_unsigned hc with hdigit | rfl
    · exact solid_of_digits (List.forall_mem_singleton.2 hdigit) c (List.mem_singleton_self c)
    · decide

end Plain
end TrackingScore.Decimal
