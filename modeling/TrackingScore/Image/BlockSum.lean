import TrackingScore.Image.Raster

/-!
Sums of rows of numbers in eight lanes. Number `i` of every full block of eight is added to lane
`i`; the lanes are joined at the end, and what is left of the row is added number by number. In
exact arithmetic the result is the plain sum; in binary arithmetic the order is part of it.
-/

namespace TrackingScore

variable {α : Type} [Scalar α]

structure Lanes (α : Type) where
  a : α
  b : α
  c : α
  d : α
  e : α
  f : α
  g : α
  h : α

def Lanes.zero : Lanes α := ⟨0.0, 0.0, 0.0, 0.0, 0.0, 0.0, 0.0, 0.0⟩

/-- The lanes, joined in pairs a half block apart. -/
def Lanes.join (l : Lanes α) : α :=
  0.0 + (l.a + l.e) + (l.b + l.f) + (l.c + l.g) + (l.d + l.h)

def blockSumFrom (l : Lanes α) : List α → α
  | a :: b :: c :: d :: e :: f :: g :: h :: rest =>
    blockSumFrom ⟨l.a + a, l.b + b, l.c + c, l.d + d, l.e + e, l.f + f, l.g + g, l.h + h⟩ rest
  | rest => rest.foldl (· + ·) l.join

def blockSum (row : List α) : α := blockSumFrom .zero row

def windowSum (rows : List (List α)) : α := rows.foldl (fun sum row => sum + blockSum row) 0.0

/-- Sum of a window of an image so many columns wide. A window as wide as the image, or of a single
row, is summed as one row. -/
def windowSumIn (width : Nat) (rows : List (List α)) : α :=
  if rows.length ≤ 1 || rows.all (·.length = width) then blockSum rows.flatten else windowSum rows

end TrackingScore
