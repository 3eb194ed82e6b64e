import TrackingScore.Binary64

/-!
The fewest decimal digits that read back as a given binary number. A finite nonzero number owns
the interval of reals that round to it. Grids of decimals are tried from the coarsest on; the
first grid with a point in the interval wins, and of two such points the nearer one.
-/

namespace TrackingScore.Decimal

inductive Tie where
  | up
  | even
  deriving Repr, DecidableEq

structure Scientific where
  digits : Nat
  exponent : Int
  deriving Repr, DecidableEq

/-- `2 ^ q` and `10 ^ k` over one denominator, as a pair of natural numbers. -/
def commonScale (q k : Int) : Nat × Nat :=
  (Nat.pow 2 q.toNat * Nat.pow 10 (-k).toNat, Nat.pow 10 k.toNat * Nat.pow 2 (-q).toNat)

/-- Chooses between the grid points `c` and `c + 1` around `value`, in units where a step of the
grid is `step` and the interval reaches from `low` to `high`. -/
def nearerInside (tie : Tie) (closed : Bool) (low value high step c : Nat) : Option Nat :=
  let inside (p : Nat) : Bool :=
    if closed then decide (low ≤ p * step) && decide (p * step ≤ high)
    else decide (low < p * step) && decide (p * step < high)
  match inside c, inside (c + 1) with
  | false, false => none
  | true, false => some c
  | false, true => some (c + 1)
  | true, true =>
    match compare (2 * value) ((2 * c + 1) * step) with
    | .lt => some c
    | .gt => some (c + 1)
    | .eq => if tie = .even && c % 2 = 0 then some c else some (c + 1)

def onGrid (tie : Tie) (mantissa : Nat) (exponent k : Int) : Option Nat :=
  let (unit, step) := commonScale (exponent - 2) k
  let value := 4 * mantissa * unit
  let below := if Binary64.closerBelow mantissa exponent then 1 else 2
  nearerInside tie (mantissa % 2 = 0) (value - below * unit) value (value + 2 * unit) step
    (value / step)

/-- Tries the grids `10 ^ k`, `10 ^ (k - 1)`, and so on. -/
def search (tie : Tie) (mantissa : Nat) (exponent : Int) : Nat → Int → Scientific
  | 0, k => ⟨0, k⟩
  | fuel + 1, k =>
    match onGrid tie mantissa exponent k with
    | some digits => ⟨digits, k⟩
    | none => search tie mantissa exponent fuel (k - 1)

def dropZeros : Nat → Scientific → Scientific
  | 0, d => d
  | fuel + 1, d =>
    if d.digits ≠ 0 && d.digits % 10 = 0 then dropZeros fuel ⟨d.digits / 10, d.exponent + 1⟩ else d

/-- Shortest decimal of `mantissa * 2 ^ exponent`. The first grid tried is coarser than the number
itself, and seventeen digits tell any two binary64 numbers apart. -/
def shortest (tie : Tie) (mantissa : Nat) (exponent : Int) : Scientific :=
  if mantissa = 0 then ⟨0, 0⟩
  else
    let top := (mantissa.log2 + 1 + exponent) * 30103 / 100000 + 1
    dropZeros 20 (search tie mantissa exponent 22 top)

end TrackingScore.Decimal
