import TrackingScore.Decimal.Reading

/-!
Numbers of JSON text: their parts as written, the integer they stand for if they are spelled as
one, and the binary64 number they are read as.

A number is read from as many leading digits as fit 64 bits. Digits before the point that do not
fit raise the power of ten, digits after it are passed over; what remains is one multiplication or
division by a power of ten. The result may differ from the nearest binary64 number in its last bit.
-/

namespace TrackingScore.Json

structure Numeral where
  negative : Bool
  whole : List Char
  fraction : List Char
  exponent : Option Int

namespace Numeral

/-- The integer of a numeral without point and exponent, if it fits 64 bits with or without sign.
Minus zero is no integer. -/
def integer? (n : Numeral) : Option Int :=
  if n.fraction.isEmpty && n.exponent.isNone then
    let magnitude := Decimal.value n.whole
    if n.negative then
      if 0 < magnitude then (int64? (-magnitude)).map Int64.toInt else none
    else (uint64? magnitude).map fun n => n.toNat
  else none

def absorb (n : Nat) : List Char → Nat × Nat
  | [] => (n, 0)
  | c :: rest =>
    let next := 10 * n + Decimal.digitValue c
    if next < UInt64.size then absorb next rest else (n, rest.length + 1)

def powerOfTen (k : Nat) : Float := Float.ofScientific 1 false k

/-- `n * 10 ^ exponent` by one multiplication or division, or two divisions for the smallest
numbers; nothing if it is infinite. -/
def scale (n : Nat) : Int → Option Float
  | .ofNat k =>
    if n = 0 then some 0.0
    else if 308 < k then none
    else
      let x := Float.ofNat n * powerOfTen k
      if x.isInf then none else some x
  | .negSucc k =>
    let k := k + 1
    if k ≤ 308 then some (Float.ofNat n / powerOfTen k)
    else if k ≤ 616 then some (Float.ofNat n / powerOfTen 308 / powerOfTen (k - 308))
    else some 0.0

def toFloat? (n : Numeral) : Option Float :=
  let (leading, raised) := absorb 0 n.whole
  let (digits, passed) := absorb leading n.fraction
  let exponent := n.exponent.getD 0 + raised - (n.fraction.length - passed : Nat)
  (scale digits exponent).map fun x => if n.negative then -x else x

end Numeral
end TrackingScore.Json
