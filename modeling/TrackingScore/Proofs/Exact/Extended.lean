import TrackingScore.Proofs.Exact.Scalar

/-!
Exact numbers together with what is not finite. Two finite numbers are compared, added, multiplied
and divided as real numbers are, and everything else follows the rules of binary numbers for infinities
and for what is not a number. Zero has no sign.
-/

namespace TrackingScore

inductive Extended where
  | notANumber
  | infinite (negative : Bool)
  | finite (x : ℝ)

namespace Extended

noncomputable def ofSign (negative : Bool) (x : ℝ) : Extended := finite (if negative then -x else x)

noncomputable def isNegative : Extended → Bool
  | notANumber => false
  | infinite negative => negative
  | finite x => decide (x < 0)

noncomputable def isZero : Extended → Bool
  | finite x => decide (x = 0)
  | _ => false

/-- The infinity whose sign is that of a product or a quotient. -/
noncomputable def unbounded (a b : Extended) : Extended := infinite (a.isNegative ^^ b.isNegative)

section arithmetic

noncomputable def neg : Extended → Extended
  | notANumber => notANumber
  | infinite negative => infinite !negative
  | finite x => finite (-x)

noncomputable def add : Extended → Extended → Extended
  | finite x, finite y => finite (x + y)
  | infinite s, infinite t => if s = t then infinite s else notANumber
  | infinite s, finite _ => infinite s
  | finite _, infinite t => infinite t
  | _, _ => notANumber

noncomputable def mul : Extended → Extended → Extended
  | finite x, finite y => finite (x * y)
  | notANumber, _ => notANumber
  | _, notANumber => notANumber
  | a, b => if a.isZero || b.isZero then notANumber else unbounded a b

noncomputable def div : Extended → Extended → Extended
  | finite x, finite y =>
    if y ≠ 0 then finite (x / y) else if x = 0 then notANumber else unbounded (finite x) (finite y)
  | finite _, infinite _ => finite 0
  | infinite s, finite y => unbounded (infinite s) (finite y)
  | _, _ => notANumber

end arithmetic

section order

noncomputable def less : Extended → Extended → Bool
  | finite x, finite y => decide (x < y)
  | finite _, infinite t => !t
  | infinite s, finite _ => s
  | infinite s, infinite t => s && !t
  | _, _ => false

noncomputable def same : Extended → Extended → Bool
  | finite x, finite y => decide (x = y)
  | infinite s, infinite t => s == t
  | _, _ => false

end order

section functions

noncomputable def sqrt : Extended → Extended
  | finite x => if x < 0 then notANumber else finite (Real.sqrt x)
  | infinite false => infinite false
  | _ => notANumber

noncomputable def sin : Extended → Extended
  | finite x => finite (Real.sin x)
  | _ => notANumber

noncomputable def cos : Extended → Extended
  | finite x => finite (Real.cos x)
  | _ => notANumber

noncomputable def acos : Extended → Extended
  | finite x => if |x| ≤ 1 then finite (Real.arccos x) else notANumber
  | _ => notANumber

noncomputable def atan2 : Extended → Extended → Extended
  | finite y, finite x => finite (Complex.arg ⟨x, y⟩)
  | finite _, infinite false => finite 0
  | finite y, infinite true => ofSign (decide (y < 0)) Real.pi
  | infinite s, finite _ => ofSign s (0.5 * Real.pi)
  | infinite s, infinite t => ofSign s ((if t then 0.75 else 0.25) * Real.pi)
  | _, _ => notANumber

noncomputable def abs : Extended → Extended
  | notANumber => notANumber
  | infinite _ => infinite false
  | finite x => finite |x|

def isFinite : Extended → Bool
  | finite _ => true
  | _ => false

noncomputable def nearestInt? : Extended → Option Int
  | finite x => Scalar.nearestInt? x
  | _ => none

noncomputable def toByte : Extended → UInt8
  | finite x => Scalar.toByte x
  | infinite false => 255
  | _ => 0

end functions

noncomputable instance : Scalar Extended where
  add := add
  sub a b := add a (neg b)
  mul := mul
  div := div
  neg := neg
  ofScientific m s e := finite (OfScientific.ofScientific m s e)
  ofInt n := finite n
  sqrt := sqrt
  sin := sin
  cos := cos
  acos := acos
  atan2 := atan2
  pi := finite Real.pi
  abs := abs
  less := less
  atMost a b := less a b || same a b
  same := same
  isFinite := isFinite
  nearestInt? := nearestInt?
  toByte := toByte

section finite

variable (x y : ℝ)

@[simp] theorem finite_sub : finite x - finite y = finite (x - y) :=
  congrArg finite (sub_eq_add_neg x y).symm

@[simp] theorem finite_mul : finite x * finite y = finite (x * y) := rfl

theorem decimal_def (m : Nat) (s : Bool) (e : Nat) :
    (OfScientific.ofScientific m s e : Extended) = finite (OfScientific.ofScientific m s e) := rfl

theorem finite_div (h : y ≠ 0) : finite x / finite y = finite (x / y) := if_pos h

@[simp] theorem less_finite : Scalar.less (finite x) (finite y) = decide (x < y) := rfl

@[simp] theorem isFinite_finite : Scalar.isFinite (finite x) = true := rfl

@[simp] theorem toByte_finite : Scalar.toByte (finite x) = Scalar.toByte x := rfl

end finite

def value? : Extended → Option ℝ
  | finite x => some x
  | _ => none

theorem value?_eq_some_iff {a : Extended} {x : ℝ} : a.value? = some x ↔ a = finite x := by
  cases a <;> simp [value?]

theorem exists_of_isFinite {a : Extended} (h : Scalar.isFinite a = true) : ∃ x, a = finite x := by
  cases a with
  | finite x => exact ⟨x, rfl⟩
  | notANumber => cases h
  | infinite negative => cases h

theorem filter_isFinite (xs : List Extended) :
    xs.filter Scalar.isFinite = (xs.filterMap value?).map finite := by
  induction xs with
  | nil => rfl
  | cons a xs ih =>
    cases a with
    | finite x => exact congrArg (finite x :: ·) ih
    | notANumber => exact ih
    | infinite negative => exact ih

end Extended
end TrackingScore
