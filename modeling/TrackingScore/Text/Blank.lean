/-!
White space as the Unicode property of that name: which characters it holds, texts trimmed of it,
and the tokens between its runs.
-/

namespace TrackingScore.Text

def blankRanges : List (Nat × Nat) :=
  [(0x9, 0xd), (0x20, 0x20), (0x85, 0x85), (0xa0, 0xa0), (0x1680, 0x1680), (0x2000, 0x200a),
    (0x2028, 0x2029), (0x202f, 0x202f), (0x205f, 0x205f), (0x3000, 0x3000)]

def isBlank (c : Char) : Bool :=
  blankRanges.any fun (first, last) => first ≤ c.toNat && c.toNat ≤ last

def trimStart (cs : List Char) : List Char := cs.dropWhile isBlank

def trimEnd (cs : List Char) : List Char := (cs.reverse.dropWhile isBlank).reverse

def trim (cs : List Char) : List Char := trimEnd (trimStart cs)

def addToTokens (c : Char) (tokens : List Char × List (List Char)) :
    List Char × List (List Char) :=
  if isBlank c then ([], if tokens.1.isEmpty then tokens.2 else tokens.1 :: tokens.2)
  else (c :: tokens.1, tokens.2)

/-- The maximal runs without white space, in order. -/
def tokens (cs : List Char) : List (List Char) :=
  let (first, rest) := cs.foldr addToTokens ([], [])
  if first.isEmpty then rest else first :: rest

end TrackingScore.Text
