import TrackingScore.Binary64

/-!
The numbers a score is computed in. Every geometric and statistical definition of the library is
written once over `Scalar`; binary64 and binary32 run it. Comparisons are Boolean because a binary
number need not be comparable with itself.
-/

namespace TrackingScore

class Scalar (α : Type) extends Add α, Sub α, Mul α, Div α, Neg α, OfScientific α where
  ofInt : Int → α
  sqrt : α → α
  sin : α → α
  cos : α → α
  acos : α → α
  atan2 : α → α → α
  pi : α
  abs : α → α
  less : α → α → Bool
  atMost : α → α → Bool
  same : α → α → Bool
  isFinite : α → Bool
  /-- Nearest integer, a half going away from zero, of a finite number. -/
  nearestInt? : α → Option Int
  toByte : α → UInt8

class Widen (ρ α : Type) where
  widen : ρ → α

export Widen (widen)

instance : Scalar Float where
  ofInt := Float.ofInt
  sqrt := Float.sqrt
  sin := Float.sin
  cos := Float.cos
  acos := Float.acos
  atan2 := Float.atan2
  pi := 3.141592653589793
  abs := Float.abs
  less a b := decide (a < b)
  atMost a b := decide (a ≤ b)
  same a b := a == b
  isFinite := Float.isFinite
  nearestInt? x := (Binary64.ofFloat x).nearestInt?
  toByte := Float.toUInt8

instance : Scalar Float32 where
  ofInt := Float32.ofInt
  sqrt := Float32.sqrt
  sin := Float32.sin
  cos := Float32.cos
  acos := Float32.acos
  atan2 := Float32.atan2
  pi := 3.1415927
  abs := Float32.abs
  less a b := decide (a < b)
  atMost a b := decide (a ≤ b)
  same a b := a == b
  isFinite := Float32.isFinite
  nearestInt? x := (Binary64.ofFloat x.toFloat).nearestInt?
  toByte := Float32.toUInt8

instance : Widen Float32 Float where
  widen := Float32.toFloat

instance : Widen Float Float where
  widen := id

namespace Scalar

variable {α : Type} [Scalar α]

@[inline] def ofNat (n : Nat) : α := ofInt n

/-- Brings a number between two bounds; what is not comparable passes through. -/
@[inline] def clamp (x low high : α) : α :=
  if less x low then low else if less high x then high else x

@[inline] def isNaN (x : α) : Bool := !same x x

/-- The order used for sorting: what is not a number comes last and equals itself. -/
@[inline] def sortsBefore (a b : α) : Bool := isNaN b || atMost a b

/-- Sum from left to right, from the neutral negative zero. -/
@[specialize] def total (xs : List α) : α := xs.foldl (· + ·) (-0.0)

end Scalar
end TrackingScore
