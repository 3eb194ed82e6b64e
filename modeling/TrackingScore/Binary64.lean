/-!
The exact number a binary64 word stands for. A finite word is a natural number times a power of
two with a sign kept apart, so every question about its decimal text or its nearest integer is
one about natural numbers.
-/

namespace TrackingScore

inductive Binary64 where
  | notANumber
  | infinite (negative : Bool)
  | finite (negative : Bool) (mantissa : Nat) (exponent : Int)
  deriving Repr, DecidableEq

namespace Binary64

def hiddenBit : Nat := 0x10000000000000

def ofBits (word : UInt64) : Binary64 :=
  let bits : Nat := word.toNat
  let negative := decide (0x8000000000000000 ≤ bits)
  let exponent : Nat := bits / hiddenBit % 2048
  let fraction : Nat := bits % hiddenBit
  if exponent = 2047 then
    if fraction = 0 then .infinite negative else .notANumber
  else if exponent = 0 then .finite negative fraction (-1074)
  else .finite negative (fraction + hiddenBit) ((exponent : Int) - 1075)

def ofFloat (x : Float) : Binary64 := ofBits x.toBits

/-- The value below is half as far away as the value above exactly when the mantissa is the
least one of a range of exponents. -/
def closerBelow (mantissa : Nat) (exponent : Int) : Bool :=
  mantissa = hiddenBit && exponent ≠ -1074

def nearestNat (mantissa : Nat) : Int → Nat
  | .ofNat k => mantissa * Nat.pow 2 k
  | .negSucc k => (mantissa + Nat.pow 2 k) / Nat.pow 2 (k + 1)

/-- Nearest integer, a half going away from zero; only finite numbers have one. -/
def nearestInt? : Binary64 → Option Int
  | .finite negative mantissa exponent =>
    let n : Int := nearestNat mantissa exponent
    some (if negative then -n else n)
  | _ => none

end Binary64
end TrackingScore
