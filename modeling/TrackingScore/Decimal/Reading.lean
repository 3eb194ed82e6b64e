import TrackingScore.Word

/-!
Decimal text as numbers: whole numbers of 64 bits, and binary64 numbers rounded from the exact
value of the text.
-/

namespace TrackingScore.Decimal

def isDigit (c : Char) : Bool := '0' ≤ c && c ≤ '9'

def digitValue (c : Char) : Nat := c.toNat - '0'.toNat

def value (digits : List Char) : Nat := digits.foldl (fun n c => 10 * n + digitValue c) 0

def natural? (cs : List Char) : Option Nat :=
  if !cs.isEmpty && cs.all isDigit then some (value cs) else none

def readUInt64 (cs : List Char) : Option UInt64 := do
  uint64? (← natural? (match cs with | '+' :: rest => rest | _ => cs))

def readInt64 (cs : List Char) : Option Int64 := do
  let n : Int ← match cs with
    | '-' :: rest => (natural? rest).map fun n => -(n : Int)
    | '+' :: rest => (natural? rest).map fun n => (n : Int)
    | _ => (natural? cs).map fun n => (n : Int)
  int64? n

structure Parts where
  digits : List Char
  exponent : Int

/-- The exponent at the end of a number: nothing, or a letter `e`, an optional sign and digits. -/
def exponentPart : List Char → Option Int
  | [] => some 0
  | c :: rest =>
    if c = 'e' || c = 'E' then
      match rest with
      | '-' :: ds => (natural? ds).map fun n => -(n : Int)
      | '+' :: ds => (natural? ds).map fun n => (n : Int)
      | ds => (natural? ds).map fun n => (n : Int)
    else none

def parts? (cs : List Char) : Option Parts := do
  let whole := cs.takeWhile isDigit
  let (fraction, rest) := match cs.dropWhile isDigit with
    | '.' :: rest => (rest.takeWhile isDigit, rest.dropWhile isDigit)
    | rest => ([], rest)
  if whole.isEmpty && fraction.isEmpty then none
  else
    let exponent ← exponentPart rest
    some ⟨whole ++ fraction, exponent - fraction.length⟩

/-- Nearest binary64 number to `n * 10 ^ exponent`. Powers of ten beyond the range of the format
are cut off first: below `10 ^ (-400)` everything is zero and from `10 ^ 400` on infinite. -/
def nearestFloat (n : Nat) (exponent : Int) : Float :=
  if n = 0 then 0.0
  else
    let magnitude : Int := (toString n).length + exponent
    if magnitude < -400 then 0.0
    else if 400 < magnitude then 1.0 / 0.0
    else Float.ofScientific n (exponent < 0) exponent.natAbs

/-- Binary64 number without its sign: infinity and not-a-number by name in any case, else decimal
text. -/
def readMagnitude (cs : List Char) : Option Float :=
  match String.ofList (cs.map Char.toLower) with
  | "inf" => some (1.0 / 0.0)
  | "infinity" => some (1.0 / 0.0)
  | "nan" => some (0.0 / 0.0)
  | _ => (parts? cs).map fun p => nearestFloat (value p.digits) p.exponent

def readFloat : List Char → Option Float
  | '-' :: rest => (readMagnitude rest).map (- ·)
  | '+' :: rest => readMagnitude rest
  | cs => readMagnitude cs

end TrackingScore.Decimal
