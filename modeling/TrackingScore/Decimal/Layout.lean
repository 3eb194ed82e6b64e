import TrackingScore.Decimal.Shortest

/-!
How a binary64 number is spelled in the texts the library writes. A layout is a record of the
format's decisions; the digits come from `Decimal.shortest`.
-/

namespace TrackingScore.Decimal

structure Layout where
  tie : Tie
  /-- Where the point may stand, counted from the first digit, in positional notation;
  always positional if absent. -/
  positional : Option (Int × Int)
  /-- Whole numbers in positional notation end in `.0`. -/
  pointZero : Bool
  plusSign : Bool
  deriving Repr

def plain : Layout := ⟨.up, none, false, false⟩

def tabular : Layout := ⟨.even, some (-4, 16), true, false⟩

def json : Layout := ⟨.even, some (-4, 16), true, true⟩

def zeros (n : Nat) : String := String.ofList (List.replicate n '0')

def Layout.fixed (layout : Layout) (digits : String) (point : Int) : String :=
  let count := digits.length
  if point ≤ 0 then "0." ++ zeros (-point).toNat ++ digits
  else if (count : Int) ≤ point then
    digits ++ zeros (point.toNat - count) ++ (if layout.pointZero then ".0" else "")
  else
    String.ofList (digits.toList.take point.toNat) ++ "." ++
      String.ofList (digits.toList.drop point.toNat)

def Layout.withExponent (layout : Layout) (digits : String) (point : Int) : String :=
  let lead := String.ofList (digits.toList.take 1)
  let rest := String.ofList (digits.toList.drop 1)
  let exponent := point - 1
  lead ++ (if rest.isEmpty then "" else "." ++ rest) ++ "e" ++
    (if layout.plusSign && 0 ≤ exponent then "+" else "") ++ toString exponent

def Layout.magnitude (layout : Layout) (mantissa : Nat) (exponent : Int) : String :=
  if mantissa = 0 then (if layout.pointZero then "0.0" else "0")
  else
    let d := shortest layout.tie mantissa exponent
    let digits := toString d.digits
    let point := d.exponent + digits.length
    match layout.positional with
    | none => layout.fixed digits point
    | some (least, greatest) =>
      if least ≤ point && point ≤ greatest then layout.fixed digits point
      else layout.withExponent digits point

def Layout.text (layout : Layout) (x : Float) : String :=
  match Binary64.ofFloat x with
  | .notANumber => "NaN"
  | .infinite negative => if negative then "-inf" else "inf"
  | .finite negative mantissa exponent =>
    (if negative then "-" else "") ++ layout.magnitude mantissa exponent

end TrackingScore.Decimal
