import TrackingScore.Json.Numeral
import TrackingScore.Text.Ascii
import TrackingScore.Text.Utf8

/-!
JSON text as a tree that keeps its faults in place. A reader of the tree meets the first fault of
what it looks at, in the order of the text, and may pass over the rest.

Passing over a value asks less of it than reading it. A number passed over may be of any size,
a text passed over may hold any code unit, and a number cut by the end of the text is malformed
where a reader would see that the text has ended. Scalars therefore keep what reading gives beside
what passing over gives.
-/

namespace TrackingScore.Json

inductive Fault where
  | cut
  | malformed
  /-- The text is JSON of another shape than wanted. -/
  | mismatch
  deriving Repr, DecidableEq

inductive Draft where
  | null
  | bool (value : Bool)
  | number (value : Except Fault Numeral) (passed : Option Fault)
  | text (value : Except Fault String) (passed : Option Fault)
  | array (items : List Draft) (passed : Option Fault)
  | object (members : List (Except Fault String × Draft)) (passed : Option Fault)
  | broken (fault : Fault)

namespace Draft

/-- The fault met by passing over a value. -/
def fault? : Draft → Option Fault
  | null => none
  | bool _ => none
  | number _ passed => passed
  | text _ passed => passed
  | array _ passed => passed
  | object _ passed => passed
  | broken fault => some fault

open Text (ascii isDigitByte hexDigit?)

def isSpace (b : UInt8) : Bool := b = ascii ' ' || b = ascii '\n' || b = ascii '\t' || b = ascii '\r'

def dropSpace (bytes : List UInt8) : List UInt8 := bytes.dropWhile isSpace

/-- What a row of digits was followed by where more was needed: nothing, or something else. -/
def stop (rest : List UInt8) : Fault := if rest.isEmpty then .cut else .malformed

def digitChars (bytes : List UInt8) : List Char :=
  (bytes.takeWhile isDigitByte).map fun b => Char.ofNat b.toNat

def readExponent (bytes : List UInt8) : Except Fault (Int × List UInt8) :=
  let (negative, rest) := match bytes with
    | b :: rest =>
      if b = ascii '-' then (true, rest) else if b = ascii '+' then (false, rest) else (false, bytes)
    | [] => (false, [])
  let digits := digitChars rest
  let rest := rest.dropWhile isDigitByte
  if digits.isEmpty then .error (stop rest)
  else
    let n : Int := Decimal.value digits
    .ok (if negative then -n else n, rest)

def readFraction : List UInt8 → Except Fault (List Char × List UInt8)
  | [] => .ok ([], [])
  | b :: rest =>
    if b = ascii '.' then
      let digits := digitChars rest
      let rest := rest.dropWhile isDigitByte
      if digits.isEmpty then .error (stop rest) else .ok (digits, rest)
    else .ok ([], b :: rest)

/-- The digits before the point, without leading zeros. -/
def readWhole (bytes : List UInt8) : Except Fault (List Char × List UInt8) :=
  let digits := digitChars bytes
  let rest := bytes.dropWhile isDigitByte
  match digits with
  | [] => .error (stop rest)
  | '0' :: _ :: _ => .error .malformed
  | _ => .ok (digits, rest)

def readMagnitude (negative : Bool) (bytes : List UInt8) :
    Except Fault (Numeral × List UInt8) := do
  let (whole, rest) ← readWhole bytes
  let (fraction, rest) ← readFraction rest
  match rest with
  | b :: rest' =>
    if b = ascii 'e' || b = ascii 'E' then
      let (exponent, rest) ← readExponent rest'
      return (⟨negative, whole, fraction, some exponent⟩, rest)
    else return (⟨negative, whole, fraction, none⟩, rest)
  | [] => return (⟨negative, whole, fraction, none⟩, [])

def readNumber (bytes : List UInt8) : Except Fault (Numeral × List UInt8) :=
  match bytes with
  | b :: rest => if b = ascii '-' then readMagnitude true rest else readMagnitude false bytes
  | [] => .error .cut

def readUnit : List UInt8 → Except Fault (Nat × List UInt8)
  | a :: b :: c :: d :: rest =>
    match hexDigit? a, hexDigit? b, hexDigit? c, hexDigit? d with
    | some a, some b, some c, some d => .ok (((a * 16 + b) * 16 + c) * 16 + d, rest)
    | _, _, _, _ => .error .malformed
  | _ => .error .cut

def escape? (b : UInt8) : Option UInt8 :=
  if b = ascii '"' || b = ascii '\\' || b = ascii '/' then some b
  else if b = ascii 'b' then some 0x08
  else if b = ascii 'f' then some 0x0c
  else if b = ascii 'n' then some 0x0a
  else if b = ascii 'r' then some 0x0d
  else if b = ascii 't' then some 0x09
  else none

def readLowHalf (high : Nat) : List UInt8 → Except Fault (Nat × List UInt8)
  | [] => .error .cut
  | b :: rest =>
    if b ≠ ascii '\\' then .error .malformed
    else match rest with
      | [] => .error .cut
      | u :: rest =>
        if u ≠ ascii 'u' then .error .malformed
        else do
          let (low, rest) ← readUnit rest
          if low < 0xdc00 || 0xdfff < low then throw .malformed
          return (0x10000 + (high - 0xd800) * 0x400 + (low - 0xdc00), rest)

def readCodePoint (bytes : List UInt8) : Except Fault (Nat × List UInt8) := do
  let (unit, rest) ← readUnit bytes
  if unit < 0xd800 || 0xdfff < unit then return (unit, rest)
  else if unit < 0xdc00 then readLowHalf unit rest
  else throw .malformed

def passText : Nat → List UInt8 → Except Fault (List UInt8)
  | 0, _ => .error .cut
  | _, [] => .error .cut
  | fuel + 1, b :: rest =>
    if b = ascii '"' then .ok rest
    else if b < 0x20 then .error .malformed
    else if b = ascii '\\' then
      match rest with
      | [] => .error .cut
      | e :: rest =>
        if e = ascii 'u' then do
          let (_, rest) ← readUnit rest
          passText fuel rest
        else if (escape? e).isSome then passText fuel rest
        else .error .malformed
    else passText fuel rest

def textBytes : Nat → List UInt8 → Except Fault (List UInt8)
  | 0, _ => .error .cut
  | _, [] => .error .cut
  | fuel + 1, b :: rest =>
    if b = ascii '"' then .ok []
    else if b < 0x20 then .error .malformed
    else if b = ascii '\\' then
      match rest with
      | [] => .error .cut
      | e :: rest =>
        if e = ascii 'u' then do
          let (point, rest) ← readCodePoint rest
          return Text.Utf8.encodeCodePoint point ++ (← textBytes fuel rest)
        else match escape? e with
          | some b => (textBytes fuel rest).map (b :: ·)
          | none => .error .malformed
    else (textBytes fuel rest).map (b :: ·)

def readText (bytes : List UInt8) : Except Fault String := do
  match Text.Utf8.decode (← textBytes (bytes.length + 1) bytes) with
  | .ok cs => return String.ofList cs
  | .error _ => throw .malformed

def readName (value : Draft) : List Char → List UInt8 → Draft × Except Fault (List UInt8)
  | [], rest => (value, .ok rest)
  | _ :: _, [] => (broken .cut, .error .cut)
  | c :: name, b :: rest =>
    if b = ascii c then readName value name rest else (broken .malformed, .error .malformed)

def fault {σ : Type} : Except Fault σ → Option Fault
  | .ok _ => none
  | .error f => some f

/-- A number, where a number that the text cuts is malformed for those who pass over it. -/
def numberAt (bytes : List UInt8) : Draft × Except Fault (List UInt8) :=
  match readNumber bytes with
  | .ok (numeral, rest) => (number (.ok numeral) none, .ok rest)
  | .error f => (number (.error f) (some .malformed), .error .malformed)

def textAt (bytes : List UInt8) : Draft × Except Fault (List UInt8) :=
  let rest := passText (bytes.length + 1) bytes
  (text (readText bytes) (fault rest), rest)

mutual

/-- The value at the front, with what follows it or the fault of passing over it. -/
def valueAt : Nat → List UInt8 → Draft × Except Fault (List UInt8)
  | 0, _ => (broken .cut, .error .cut)
  | fuel + 1, bytes =>
    match dropSpace bytes with
    | [] => (broken .cut, .error .cut)
    | b :: rest =>
      if b = ascii '"' then textAt rest
      else if b = ascii '[' then
        match dropSpace rest with
        | [] => (array [] (some .cut), .error .cut)
        | c :: rest' =>
          if c = ascii ']' then (array [] none, .ok rest')
          else
            let (items, rest) := itemsAt fuel rest
            (array items (fault rest), rest)
      else if b = ascii '\x7b' then
        match dropSpace rest with
        | [] => (object [] (some .cut), .error .cut)
        | c :: rest' =>
          if c = ascii '\x7d' then (object [] none, .ok rest')
          else
            let (members, rest) := membersAt fuel rest
            (object members (fault rest), rest)
      else if b = ascii 'n' then readName null ['u', 'l', 'l'] rest
      else if b = ascii 't' then readName (bool true) ['r', 'u', 'e'] rest
      else if b = ascii 'f' then readName (bool false) ['a', 'l', 's', 'e'] rest
      else if b = ascii '-' || isDigitByte b then numberAt (b :: rest)
      else (broken .malformed, .error .malformed)

/-- Items up to the closing bracket, at least one. -/
def itemsAt : Nat → List UInt8 → List Draft × Except Fault (List UInt8)
  | 0, _ => ([], .error .cut)
  | fuel + 1, bytes =>
    match valueAt fuel bytes with
    | (item, .error f) => ([item], .error f)
    | (item, .ok rest) =>
      match dropSpace rest with
      | [] => ([item], .error .cut)
      | b :: rest =>
        if b = ascii ']' then ([item], .ok rest)
        else if b = ascii ',' then
          let (items, rest) := itemsAt fuel rest
          (item :: items, rest)
        else ([item], .error .malformed)

def membersAt : Nat → List UInt8 → List (Except Fault String × Draft) × Except Fault (List UInt8)
  | 0, _ => ([], .error .cut)
  | fuel + 1, bytes =>
    match dropSpace bytes with
    | [] => ([], .error .cut)
    | b :: rest =>
      if b ≠ ascii '"' then ([], .error .malformed)
      else
        let key := readText rest
        match passText (rest.length + 1) rest with
        | .error f => ([(key, broken f)], .error f)
        | .ok rest =>
          match dropSpace rest with
          | [] => ([(key, broken .cut)], .error .cut)
          | b :: rest =>
            if b ≠ ascii ':' then ([(key, broken .malformed)], .error .malformed)
            else
              match valueAt fuel rest with
              | (value, .error f) => ([(key, value)], .error f)
              | (value, .ok rest) =>
                match dropSpace rest with
                | [] => ([(key, value)], .error .cut)
                | b :: rest =>
                  if b = ascii '\x7d' then ([(key, value)], .ok rest)
                  else if b = ascii ',' then
                    let (members, rest) := membersAt fuel rest
                    ((key, value) :: members, rest)
                  else ([(key, value)], .error .malformed)

end

def ofBytes (bytes : List UInt8) : Draft × List UInt8 :=
  let (draft, rest) := valueAt (2 * bytes.length + 2) bytes
  (draft, match rest with | .ok rest => rest | .error _ => [])

end Draft
end TrackingScore.Json
