/-!
UTF-8 as lists of bytes: how a character is written, and reading with the offset of the first
byte that starts no character.
-/

namespace TrackingScore.Text.Utf8

def encodeCodePoint (n : Nat) : List UInt8 :=
  if n < 0x80 then [UInt8.ofNat n]
  else if n < 0x800 then [UInt8.ofNat (0xc0 + n / 0x40), UInt8.ofNat (0x80 + n % 0x40)]
  else if n < 0x10000 then
    [UInt8.ofNat (0xe0 + n / 0x1000), UInt8.ofNat (0x80 + n / 0x40 % 0x40),
      UInt8.ofNat (0x80 + n % 0x40)]
  else
    [UInt8.ofNat (0xf0 + n / 0x40000), UInt8.ofNat (0x80 + n / 0x1000 % 0x40),
      UInt8.ofNat (0x80 + n / 0x40 % 0x40), UInt8.ofNat (0x80 + n % 0x40)]

def encodeChar (c : Char) : List UInt8 := encodeCodePoint c.toNat

def encode (cs : List Char) : List UInt8 := cs.flatMap encodeChar

def continuation? (b : UInt8) : Option Nat :=
  let n := b.toNat
  if 0x80 ≤ n && n < 0xc0 then some (n - 0x80) else none

/-- A code point that is a character and needs the bytes it was written with. -/
def character? (least n : Nat) : Option Char :=
  if h : n.isValidChar then if least ≤ n then some (Char.ofNatAux n h) else none else none

def front? : List UInt8 → Option (Char × Nat)
  | [] => none
  | a :: rest => do
    let n := a.toNat
    if n < 0x80 then some (Char.ofNat n, 1)
    else if n < 0xc0 then none
    else if n < 0xe0 then
      match rest with
      | b :: _ => some (← character? 0x80 ((n - 0xc0) * 0x40 + (← continuation? b)), 2)
      | _ => none
    else if n < 0xf0 then
      match rest with
      | b :: c :: _ =>
        some (← character? 0x800
          (((n - 0xe0) * 0x40 + (← continuation? b)) * 0x40 + (← continuation? c)), 3)
      | _ => none
    else
      match rest with
      | b :: c :: d :: _ =>
        some (← character? 0x10000
          ((((n - 0xf0) * 0x40 + (← continuation? b)) * 0x40 + (← continuation? c)) * 0x40 +
            (← continuation? d)), 4)
      | _ => none

/-- Reads the characters of `bytes`; `skip` bytes of the current one are still to be passed and
`offset` bytes lie before. -/
def decodeFrom (offset skip : Nat) (bytes : List UInt8) : Except Nat (List Char) :=
  match bytes, skip with
  | [], _ => .ok []
  | _ :: rest, skip + 1 => decodeFrom (offset + 1) skip rest
  | b :: rest, 0 =>
    match front? (b :: rest) with
    | none => .error offset
    | some (c, count) => (decodeFrom (offset + 1) (count - 1) rest).map (c :: ·)

def decode (bytes : List UInt8) : Except Nat (List Char) := decodeFrom 0 0 bytes

end TrackingScore.Text.Utf8
