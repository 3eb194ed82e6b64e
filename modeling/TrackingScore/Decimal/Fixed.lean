import TrackingScore.Decimal.Layout

/-!
Text of a binary64 number with a fixed count of decimal places, rounded from its exact value: to
within half a unit of the last place, and to the even neighbour from half way.
-/

namespace TrackingScore.Decimal

/-- Nearest integer to a quotient, a half going to the even neighbour. -/
def roundDiv (num den : Nat) : Nat :=
  let q := num / den
  match compare (2 * (num % den)) den with
  | .lt => q
  | .gt => q + 1
  | .eq => q + q % 2

/-- `mantissa * 2 ^ exponent` in units of the last of `places` decimal places. -/
def scaled (places mantissa : Nat) (exponent : Int) : Nat :=
  roundDiv (mantissa * Nat.pow 10 places * Nat.pow 2 exponent.toNat) (Nat.pow 2 (-exponent).toNat)

def padded (width n : Nat) : String :=
  let digits := toString n
  zeros (width - digits.length) ++ digits

def withPlaces (places : Nat) (x : Float) : String :=
  match Binary64.ofFloat x with
  | .notANumber => "NaN"
  | .infinite negative => if negative then "-inf" else "inf"
  | .finite negative mantissa exponent =>
    let n := scaled places mantissa exponent
    let unit := Nat.pow 10 places
    (if negative then "-" else "") ++ toString (n / unit) ++
      (if places = 0 then "" else "." ++ padded places (n % unit))

end TrackingScore.Decimal
