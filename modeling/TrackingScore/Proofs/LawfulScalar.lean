import TrackingScore.Proofs.Exact.Scalar

/-!
Laws that binary numbers obey as exact ones do. Comparisons put all numbers in one line, what is not
a number is comparable with nothing, the square of a difference does not tell which way it was
taken, and zero stays zero as a factor.
-/

namespace TrackingScore

open Scalar

class LawfulScalar (α : Type) [Scalar α] : Prop where
  atMost_trans {a b c : α} : atMost a b = true → atMost b c = true → atMost a c = true
  atMost_total {a b : α} : isNaN a = false → isNaN b = false → atMost a b = true ∨ atMost b a = true
  not_isNaN_of_atMost {a b : α} : atMost a b = true → isNaN a = false ∧ isNaN b = false
  less_iff {a b : α} : less a b = true ↔ atMost a b = true ∧ atMost b a = false
  same_iff {a b : α} : same a b = true ↔ atMost a b = true ∧ atMost b a = true
  square_sub_comm (a b : α) : (a - b) * (a - b) = (b - a) * (b - a)
  not_isNaN_zero : isNaN (0.0 : α) = false
  /-- The product is zero again, of either sign, or not a number. -/
  less_zero_of_mul_less {a b c : α} : same a 0.0 = true → less (a * b) c = true → less 0.0 c = true

instance : LawfulScalar ℝ where
  atMost_trans hab hbc := decide_eq_true ((of_decide_eq_true hab).trans (of_decide_eq_true hbc))
  atMost_total {a b} _ _ := (le_total a b).imp decide_eq_true decide_eq_true
  not_isNaN_of_atMost _ := by simp [isNaN, same]
  less_iff {a b} := by simpa [less, atMost] using le_of_lt
  same_iff {a b} := by simpa [same, atMost] using le_antisymm_iff
  square_sub_comm a b := by ring
  not_isNaN_zero := by simp [isNaN, same]
  less_zero_of_mul_less := by simp +contextual [same, less, zero_decimal]

namespace LawfulScalar

variable {α : Type} [Scalar α] [LawfulScalar α] {a b c : α}

theorem atMost_self (h : isNaN a = false) : atMost a a = true :=
  (atMost_total h h).elim id id

theorem atMost_of_less (h : less a b = true) : atMost a b = true := (less_iff.1 h).1

theorem less_of_not_atMost (ha : isNaN a = false) (hb : isNaN b = false) (h : atMost a b = false) :
    less b a = true :=
  less_iff.2 ⟨(atMost_total ha hb).resolve_left (by rw [h]; exact Bool.false_ne_true), h⟩

theorem less_of_less_of_atMost (hab : less a b = true) (hbc : atMost b c = true) :
    less a c = true := by
  obtain ⟨hle, hnot⟩ := less_iff.1 hab
  refine less_iff.2 ⟨atMost_trans hle hbc, ?_⟩
  rw [Bool.eq_false_iff] at hnot ⊢
  exact fun hca => hnot (atMost_trans hbc hca)

theorem atMost_of_not_less (ha : isNaN a = false) (hb : isNaN b = false) (h : less a b = false) :
    atMost b a = true := by
  by_contra hnot
  rw [less_of_not_atMost hb ha (Bool.eq_false_iff.2 hnot)] at h
  exact Bool.false_ne_true h.symm

theorem same_of_not_less (ha : isNaN a = false) (hb : isNaN b = false) (hab : less a b = false)
    (hba : less b a = false) : same a b = true :=
  same_iff.2 ⟨atMost_of_not_less hb ha hba, atMost_of_not_less ha hb hab⟩

theorem not_less_self : less a a = false := by
  rw [Bool.eq_false_iff]
  intro h
  obtain ⟨hle, hnot⟩ := less_iff.1 h
  rw [hle] at hnot
  exact Bool.false_ne_true hnot.symm

theorem sortsBefore_trans (a b c : α) (hab : sortsBefore a b = true)
    (hbc : sortsBefore b c = true) : sortsBefore a c = true := by
  simp only [sortsBefore, Bool.or_eq_true] at hab hbc ⊢
  refine hbc.imp id fun hbc => ?_
  rcases hab with hb | hab
  · rw [(not_isNaN_of_atMost hbc).1] at hb
    exact absurd hb Bool.false_ne_true
  · exact atMost_trans hab hbc

theorem sortsBefore_total (a b : α) : (sortsBefore a b || sortsBefore b a) = true := by
  cases ha : isNaN a with
  | true => simp [sortsBefore, ha]
  | false =>
    cases hb : isNaN b with
    | true => simp [sortsBefore, hb]
    | false => simpa [sortsBefore, ha, hb] using atMost_total ha hb

end LawfulScalar
end TrackingScore
