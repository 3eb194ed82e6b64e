/-!
Bytes that stand for ASCII characters.
-/

namespace TrackingScore.Text

def ascii (c : Char) : UInt8 := c.toUInt8

def isDigitByte (b : UInt8) : Bool := ascii '0' ≤ b && b ≤ ascii '9'

def isSpaceByte (b : UInt8) : Bool :=
  b = ascii ' ' || b = ascii '\t' || b = ascii '\n' || b = 0x0c || b = ascii '\r'

def hexDigit? (b : UInt8) : Option Nat :=
  let n := b.toNat
  if isDigitByte b then some (n - 0x30)
  else if 0x61 ≤ n && n ≤ 0x66 then some (n - 0x57)
  else if 0x41 ≤ n && n ≤ 0x46 then some (n - 0x37)
  else none

end TrackingScore.Text
