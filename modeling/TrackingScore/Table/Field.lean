import TrackingScore.Csv.Record
import TrackingScore.Decimal.Reading
import TrackingScore.Scalar

/-!
The fields of the tables the library reads: columns by name, timestamps and numbers. How a number
is read is left open; every reader takes it as the function `number`.
-/

namespace TrackingScore.Table

open Scalar

variable {α : Type}

abbrev File := Option (List UInt8)

/-- Index of the first column that has one of the names, the first name going first. -/
def column? (header : List (List Char)) (names : List String) : Option Nat :=
  names.findSome? fun name => header.findIdx? fun field => Text.trim field = name.toList

def column (header : List (List Char)) (names : List String) : Except (EvalError α) Nat :=
  match column? header names with
  | some index => .ok index
  | none => .error (.ingestion (.missingColumn names))

variable [Scalar α]

def timestampOf? (x : α) : Option Int64 := do
  int64? (← nearestInt? x)

def readTimestamp (number : List Char → Option α) (field : List Char) :
    Except (EvalError α) Int64 :=
  let field := Text.trim field
  match Decimal.readInt64 field with
  | some t => .ok t
  | none =>
    match (number field).bind timestampOf? with
    | some t => .ok t
    | none => .error (.ingestion (.invalidTimestamp (String.ofList field)))

def readNumber (number : List Char → Option α) (field : List Char) : Except (EvalError α) α :=
  let field := Text.trim field
  match number field with
  | some x => .ok x
  | none => .error (.ingestion (.invalidNumber (String.ofList field)))

/-- The first nine digits of a fraction as nanoseconds. -/
def nanoseconds (fraction : List Char) : Nat :=
  let digits := fraction.take 9
  Decimal.value digits * Nat.pow 10 (9 - digits.length)

def secondsOf? (negative : Bool) (whole fraction : List Char) : Option Int64 :=
  let seconds := Decimal.value whole
  let total : Nat := seconds * 1000000000 + nanoseconds fraction
  (int64? total).map fun t => if negative then -t else t

/-- Decimal seconds as nanoseconds, exactly; digits past the nanosecond are cut off. A token in
another notation is read as a number. -/
def readSeconds (number : List Char → Option α) (token : List Char) :
    Except (EvalError α) Int64 :=
  let (negative, digits) := match token with
    | '-' :: rest => (true, rest)
    | _ => (false, token)
  let whole := digits.takeWhile (· ≠ '.')
  let fraction := (digits.dropWhile (· ≠ '.')).drop 1
  let time? :=
    if whole.isEmpty && fraction.isEmpty then none
    else if (whole ++ fraction).all Decimal.isDigit then secondsOf? negative whole fraction
    else (number token).bind fun seconds => timestampOf? (seconds * 1e9)
  match time? with
  | some t => .ok t
  | none => .error (.ingestion (.invalidTime (String.ofList token)))

end TrackingScore.Table
