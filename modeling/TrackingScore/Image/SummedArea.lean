import TrackingScore.Image.Raster

/-!
Summed-area tables: entry `(r, c)` is the sum of the `r` by `c` cells in the upper left corner, so
the sum of any box takes four entries.
-/

namespace TrackingScore

variable {α : Type} [Scalar α] {h w : Nat}

def runningSums (row : Vector α w) : (n : Nat) → n ≤ w → Vector α (n + 1)
  | 0, _ => Vector.replicate 1 0.0
  | n + 1, hn =>
    let sums := runningSums row n (by omega)
    sums.push (sums[n] + row[n])

/-- The table of the first `n` rows of a grid. -/
def summedRows (cells : Grid α h w) : (n : Nat) → n ≤ h → Grid α (n + 1) (w + 1)
  | 0, _ => Vector.replicate 1 (Vector.replicate (w + 1) 0.0)
  | n + 1, hn =>
    let table := summedRows cells n (by omega)
    table.push (Vector.zipWith (· + ·) table[n] (runningSums cells[n] w (by omega)))

def summedArea (cells : Grid α h w) : Grid α (h + 1) (w + 1) := summedRows cells h (by omega)

/-- Sum of the square box of the given size whose upper left cell is `(row, col)`. -/
def boxSum (table : Grid α (h + 1) (w + 1)) (row col size : Nat) (hr : row + size ≤ h)
    (hc : col + size ≤ w) : α :=
  table[row + size][col + size] - table[row][col + size] - table[row + size][col] +
    table[row][col]

end TrackingScore
