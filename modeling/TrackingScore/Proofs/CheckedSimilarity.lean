import TrackingScore.Proofs.WindowSimilarity

/-!
The structural similarity computed with plain numbers for places and sizes. Tables are filled cell by
cell, a read or write outside a table has no result, and neither has a difference below zero. On all
images and for every window this computation has a result, the one of the grids that carry their sizes
in their types; it is refused for images of different sizes and for windows too small for a variance.
-/

namespace TrackingScore

section checked

/-- The difference of two natural numbers, unless it is below zero. -/
def difference? (m n : Nat) : Option Nat := if n ≤ m then some (m - n) else none

theorem difference?_eq {m n : Nat} (h : n ≤ m) : difference? m n = some (m - n) := if_pos h

theorem foldlM_range_eq_some {σ : Type} (step : σ → Nat → Option σ) {n : Nat}
    (state : (i : Nat) → i ≤ n → σ)
    (h : ∀ i (hi : i < n), step (state i (Nat.le_of_lt hi)) i = some (state (i + 1) hi)) :
    (List.range n).foldlM step (state 0 (Nat.zero_le n)) = some (state n (Nat.le_refl n)) := by
  have hrun (m : Nat) (hm : m ≤ n) :
      (List.range m).foldlM step (state 0 (Nat.zero_le n)) = some (state m hm) := by
    induction m with
    | zero => rfl
    | succ m ih =>
      rw [List.range_succ, List.foldlM_append, ih (Nat.le_of_lt hm)]
      simp [h m hm]
  exact hrun n (Nat.le_refl n)

variable {β : Type} {h w : Nat}

theorem Grid.get?_of_lt (g : Grid β h w) {r c : Nat} (hr : r < h) (hc : c < w) :
    g.get? r c = some g[r][c] := by
  rw [Grid.get?_eq, dif_pos ⟨hr, hc⟩]

def Grid.set? (g : Grid β h w) (r c : Nat) (x : β) : Option (Grid β h w) :=
  if hr : r < h then if hc : c < w then some (g.set r (g[r].set c x)) else none else none

def Grid.ofCells? (h w : Nat) (cell : Nat → Nat → Option β) : Option (Grid β h w) :=
  Vector.ofFnM fun r : Fin h => Vector.ofFnM fun c : Fin w => cell r c

def Reads (number : Nat → Nat → Option β) (cells : Grid β h w) : Prop :=
  ∀ r c, (hr : r < h) → (hc : c < w) → number r c = some cells[r][c]

theorem Grid.ofCells?_eq {cell : Nat → Nat → Option β} {cells : Grid β h w}
    (hcell : Reads cell cells) : Grid.ofCells? h w cell = some cells := by
  have hcells : (Vector.ofFn fun r : Fin h => Vector.ofFn fun c : Fin w => cells[r][c]) = cells :=
    Vector.ext fun r hr => Vector.ext fun c hc => by simp
  have hrow (r : Fin h) : (Vector.ofFnM fun c : Fin w => cell r c) =
      some (Vector.ofFn fun c : Fin w => cells[r][c]) := by
    simp only [fun c : Fin w => hcell r c r.isLt c.isLt]
    exact Vector.ofFnM_pure
  simp only [Grid.ofCells?, hrow]
  exact Vector.ofFnM_pure.trans (congrArg some hcells)

end checked

section tables

variable {α : Type} [Scalar α] {h w : Nat}

/-- One more column of a row: the number there joins the running sum, and the sum joins the entry
above. -/
def addColumn? (number : Nat → Nat → Option α) (row : Nat) (state : Grid α (h + 1) (w + 1) × α)
    (col : Nat) : Option (Grid α (h + 1) (w + 1) × α) := do
  let sum := state.2 + (← number row col)
  let table ← state.1.set? (row + 1) (col + 1) ((← state.1.get? row (col + 1)) + sum)
  return (table, sum)

def addRow? (number : Nat → Nat → Option α) (table : Grid α (h + 1) (w + 1)) (row : Nat) :
    Option (Grid α (h + 1) (w + 1)) := do
  return (← (List.range w).foldlM (addColumn? number row) (table, 0.0)).1

/-- The summed-area table of numbers, filled from one of zeros. -/
def tableOf? (h w : Nat) (number : Nat → Nat → Option α) : Option (Grid α (h + 1) (w + 1)) :=
  (List.range h).foldlM (addRow? number) (Grid.ofFn fun _ _ => 0.0)

def boxSum? (table : Grid α h w) (row col size : Nat) : Option α := do
  return (← table.get? (row + size) (col + size)) - (← table.get? row (col + size)) -
    (← table.get? (row + size) col) + (← table.get? row col)

theorem boxSum?_eq (table : Grid α (h + 1) (w + 1)) {row col size : Nat} (hr : row + size ≤ h)
    (hc : col + size ≤ w) : boxSum? table row col size = some (boxSum table row col size hr hc) := by
  simp [boxSum?, boxSum, table.get?_of_lt, show row + size < h + 1 by omega,
    show col + size < w + 1 by omega, show row < h + 1 by omega, show col < w + 1 by omega]

theorem runningSums_zero (row : Vector α w) (n : Nat) (hn : n ≤ w) :
    (runningSums row n hn)[0] = 0.0 := by
  induction n with
  | zero => rfl
  | succ n ih => rw [runningSums, Vector.getElem_push_lt (by omega), ih]

theorem runningSums_succ (row : Vector α w) (n : Nat) (hn : n ≤ w) {c : Nat} (hc : c < n) :
    (runningSums row n hn)[c + 1] = (runningSums row n hn)[c] + row[c] := by
  induction n with
  | zero => omega
  | succ n ih =>
    simp only [runningSums, Vector.getElem_push]
    rcases Nat.lt_succ_iff_lt_or_eq.1 hc with hlt | rfl
    · rw [dif_pos (by omega), dif_pos (by omega), ih _ hlt]
    · rw [dif_neg (by omega), dif_pos (by omega)]

theorem summedRows_add_one (cells : Grid α h w) (n : Nat) (hn : n + 1 ≤ h) {r : Nat}
    (hr : r < n + 1) :
    (summedRows cells (n + 1) hn)[r] = (summedRows cells n (Nat.le_of_succ_le hn))[r] :=
  Vector.getElem_push_lt hr

theorem summedRows_zero (cells : Grid α h w) (n : Nat) (hn : n ≤ h) :
    (summedRows cells n hn)[0] = Vector.replicate (w + 1) 0.0 := by
  induction n with
  | zero => rfl
  | succ n ih => rw [summedRows_add_one cells n hn (Nat.succ_pos n), ih]

theorem summedRows_succ (cells : Grid α h w) (n : Nat) (hn : n ≤ h) {r : Nat} (hr : r < n) :
    (summedRows cells n hn)[r + 1] =
      Vector.zipWith (· + ·) (summedRows cells n hn)[r] (runningSums cells[r] w (Nat.le_refl w)) := by
  induction n with
  | zero => omega
  | succ n ih =>
    rcases Nat.lt_succ_iff_lt_or_eq.1 hr with hlt | rfl
    · rw [summedRows_add_one cells n hn (by omega), summedRows_add_one cells n hn hr, ih _ hlt]
    · rw [summedRows_add_one cells r hn hr]
      exact Vector.getElem_push_eq

/-- The table filled up to a place. -/
def filled (cells : Grid α h w) (rows cols : Nat) : Grid α (h + 1) (w + 1) :=
  Grid.ofFn fun r c =>
    if r.val ≤ rows ∨ r.val = rows + 1 ∧ c.val ≤ cols then (summedArea cells)[r][c] else 0.0

theorem getElem_filled (cells : Grid α h w) (rows cols : Nat) {r c : Nat} (hr : r < h + 1)
    (hc : c < w + 1) :
    (filled cells rows cols)[r][c] =
      if r ≤ rows ∨ r = rows + 1 ∧ c ≤ cols then (summedArea cells)[r][c] else 0.0 := by
  simp [filled, Grid.ofFn]

variable {number : Nat → Nat → Option α} {cells : Grid α h w}

theorem getElem_summedArea_zero (cells : Grid α h w) {c : Nat} (hc : c < w + 1) :
    (summedArea cells)[0][c] = 0.0 := by
  simp only [summedArea, summedRows_zero, Vector.getElem_replicate]

theorem getElem_summedArea_succ (cells : Grid α h w) {r c : Nat} (hr : r < h) (hc : c < w + 1) :
    (summedArea cells)[r + 1][c] =
      (summedArea cells)[r][c] + (runningSums cells[r] w (Nat.le_refl w))[c] := by
  simp only [summedArea, summedRows_succ _ _ _ hr, Vector.getElem_zipWith]

theorem set?_filled (cells : Grid α h w) {row col : Nat} (hr : row < h) (hc : col < w) :
    (filled cells row col).set? (row + 1) (col + 1) (summedArea cells)[row + 1][col + 1] =
      some (filled cells row (col + 1)) := by
  rw [Grid.set?, dif_pos (by omega), dif_pos (by omega), Option.some_inj]
  refine Vector.ext fun r hrow => Vector.ext fun c hcol => ?_
  by_cases hhere : row + 1 = r ∧ col + 1 = c
  · obtain ⟨rfl, rfl⟩ := hhere
    simp [getElem_filled]
  · have hkeep : (r ≤ row ∨ r = row + 1 ∧ c ≤ col) ↔ (r ≤ row ∨ r = row + 1 ∧ c ≤ col + 1) := by
      omega
    rw [getElem_filled]
    simp only [Vector.getElem_set]
    split
    · rename_i hrow
      subst hrow
      rw [Vector.getElem_set_ne _ _ (by omega), getElem_filled, if_congr hkeep rfl rfl]
    · rw [getElem_filled, if_congr hkeep rfl rfl]

theorem addColumn?_filled
    (hnumber : Reads number cells) {row col : Nat} (hr : row < h) (hc : col < w) :
    addColumn? number row
        (filled cells row col, (runningSums cells[row] w (Nat.le_refl w))[col]) col =
      some (filled cells row (col + 1), (runningSums cells[row] w (Nat.le_refl w))[col + 1]) := by
  have hsum := runningSums_succ cells[row] w (Nat.le_refl w) hc
  have habove : (filled cells row col).get? row (col + 1) =
      some (summedArea cells)[row][col + 1] := by
    rw [Grid.get?_of_lt _ (by omega) (by omega), getElem_filled, if_pos (.inl (Nat.le_refl row))]
  have hentry := getElem_summedArea_succ cells hr (show col + 1 < w + 1 by omega)
  simp [addColumn?, hnumber row col hr hc, ← hsum, habove, ← hentry, set?_filled cells hr hc]

theorem getElem_summedArea_left (h0 : (0.0 + 0.0 : α) = 0.0) (cells : Grid α h w) {r : Nat}
    (hr : r < h + 1) : (summedArea cells)[r][0] = 0.0 := by
  induction r with
  | zero => exact getElem_summedArea_zero cells _
  | succ r ih => rw [getElem_summedArea_succ cells (by omega), ih (by omega), runningSums_zero, h0]

theorem filled_width (h0 : (0.0 + 0.0 : α) = 0.0) (cells : Grid α h w) (row : Nat) :
    filled cells row w = filled cells (row + 1) 0 := by
  refine Vector.ext fun r hr => Vector.ext fun c hc => ?_
  rw [getElem_filled, getElem_filled]
  by_cases hnext : r = row + 2 ∧ c = 0
  · obtain ⟨rfl, rfl⟩ := hnext
    rw [getElem_summedArea_left h0, ite_self, ite_self]
  · exact if_congr (by omega) rfl rfl

theorem addRow?_filled (h0 : (0.0 + 0.0 : α) = 0.0) (hnumber : Reads number cells)
    {row : Nat} (hr : row < h) :
    addRow? number (filled cells row 0) row = some (filled cells (row + 1) 0) := by
  have hloop := foldlM_range_eq_some (addColumn? number row)
    (fun col hc =>
      (filled cells row col, (runningSums cells[row] w (Nat.le_refl w))[col]))
    fun col hc => addColumn?_filled hnumber hr hc
  rw [runningSums_zero, filled_width h0] at hloop
  simp [addRow?, hloop]

theorem tableOf?_eq (h0 : (0.0 + 0.0 : α) = 0.0) (hnumber : Reads number cells) :
    tableOf? h w number = some (summedArea cells) := by
  have hloop := foldlM_range_eq_some (addRow? number) (fun row _ => filled cells row 0)
    fun row hr => addRow?_filled h0 hnumber hr
  have hstart : filled cells 0 0 = Grid.ofFn fun _ _ => 0.0 := by
    refine Vector.ext fun r hr => Vector.ext fun c hc => ?_
    have hleft := getElem_summedArea_left h0 cells hr
    rw [getElem_filled]
    split
    · rename_i hfirst
      rcases hfirst with hr0 | ⟨-, hc0⟩
      · obtain rfl := Nat.le_zero.1 hr0
        simp [Grid.ofFn, getElem_summedArea_zero cells hc]
      · obtain rfl := Nat.le_zero.1 hc0
        simp [Grid.ofFn, hleft]
    · simp [Grid.ofFn]
  have hend : filled cells h 0 = summedArea cells := by
    refine Vector.ext fun r hr => Vector.ext fun c hc => ?_
    rw [getElem_filled, if_pos (by omega)]
  rw [tableOf?, ← hstart, hloop, hend]

def product? (x y : Nat → Nat → Option α) (r c : Nat) : Option α := do
  return (← x r c) * (← y r c)

def products (x y : Grid α h w) : Grid α h w :=
  Grid.ofFn fun r c => x.cell (r, c) * y.cell (r, c)

theorem Reads.product {x? y? : Nat → Nat → Option α} {x y : Grid α h w} (hx : Reads x? x)
    (hy : Reads y? y) : Reads (product? x? y?) (products x y) := by
  intro r c hr hc
  simp [product?, hx r c hr hc, hy r c hr hc, products, Grid.cell, Grid.ofFn]

end tables

namespace Ssim

variable {α : Type} [Scalar α] {h w : Nat}

/-- Similarity at one place of the window, from the five tables. -/
def scoreAt? (s : Ssim α) (window : Nat) (x y xx yy xy : Grid α h w) (r c : Nat) : Option α := do
  return s.localScore (Scalar.ofNat (window * window))
    ⟨← boxSum? x r c window, ← boxSum? y r c window, ← boxSum? xx r c window,
      ← boxSum? yy r c window, ← boxSum? xy r c window⟩

def channelMap? (s : Ssim α) (h w window : Nat) (x y : Nat → Nat → Option α) :
    Option (Raster α) := do
  let tableX ← tableOf? h w x
  let tableY ← tableOf? h w y
  let tableXX ← tableOf? h w (product? x x)
  let tableYY ← tableOf? h w (product? y y)
  let tableXY ← tableOf? h w (product? x y)
  let rows ← difference? h window
  let cols ← difference? w window
  return ⟨rows + 1, cols + 1, ← Grid.ofCells? (rows + 1) (cols + 1)
    (s.scoreAt? window tableX tableY tableXX tableYY tableXY)⟩

theorem reads_scoreAt (s : Ssim α) (x y : Grid α h w) {window : Nat} (hh : window ≤ h)
    (hw : window ≤ w) :
    Reads (s.scoreAt? window (summedArea x) (summedArea y) (summedArea (products x x))
        (summedArea (products y y)) (summedArea (products x y)))
      (s.channelMap x y window hh hw) := by
  intro r c hrow hcol
  have hr : r + window ≤ h := by omega
  have hc : c + window ≤ w := by omega
  simp [scoreAt?, boxSum?_eq _ hr hc, channelMap, products, Grid.cell, Grid.ofFn]

theorem channelMap?_eq (h0 : (0.0 + 0.0 : α) = 0.0) (s : Ssim α) {x? y? : Nat → Nat → Option α}
    {x y : Grid α h w} (hx : Reads x? x) (hy : Reads y? y) {window : Nat} (hh : window ≤ h)
    (hw : window ≤ w) :
    s.channelMap? h w window x? y? = some ⟨_, _, s.channelMap x y window hh hw⟩ := by
  have hcells := Grid.ofCells?_eq (s.reads_scoreAt x y hh hw)
  simp [channelMap?, tableOf?_eq h0 hx, tableOf?_eq h0 hy, tableOf?_eq h0 (hx.product hx),
    tableOf?_eq h0 (hy.product hy), tableOf?_eq h0 (hx.product hy), difference?_eq hh,
    difference?_eq hw, hcells]

def level? (part : Pixel → UInt8) (image : RgbImage) (r c : Nat) : Option α :=
  (image.cells.get? r c).map fun p => byteScalar (part p)

def meanAt? (red green blue : Raster α) (r c : Nat) : Option α := do
  return (0.0 + (← red.cells.get? r c) + (← green.cells.get? r c) + (← blue.cells.get? r c)) / 3.0

def window? (s : Ssim α) (h w : Nat) : Option (Option Nat) :=
  let window := min (min s.windowSize h) w
  if window < 3 then some none
  else if window % 2 = 0 then (difference? window 1).map some
  else some (some window)

def mapOf? (s : Ssim α) (lhs rhs : RgbImage) (window : Nat) : Option (Raster α) := do
  let rows ← difference? lhs.height window
  let cols ← difference? lhs.width window
  let red ← s.channelMap? lhs.height lhs.width window (level? (·.r) lhs) (level? (·.r) rhs)
  let green ← s.channelMap? lhs.height lhs.width window (level? (·.g) lhs) (level? (·.g) rhs)
  let blue ← s.channelMap? lhs.height lhs.width window (level? (·.b) lhs) (level? (·.b) rhs)
  return ⟨rows + 1, cols + 1, ← Grid.ofCells? (rows + 1) (cols + 1) (meanAt? red green blue)⟩

def computeMap? (s : Ssim α) (lhs rhs : RgbImage) : Option (Except (EvalError α) (Raster α)) :=
  if lhs.dimensions = rhs.dimensions then do
    match ← s.window? lhs.height lhs.width with
    | none => return .error (.invalidParameter (.window s.windowSize lhs.width lhs.height))
    | some window => return .ok (← s.mapOf? lhs rhs window)
  else some (.error (.invalidParameter (.imageSizes lhs.dimensions rhs.dimensions)))

theorem reads_level (part : Pixel → UInt8) (image : Grid Pixel h w) :
    Reads (level? part ⟨h, w, image⟩) (channel part image : Grid α h w) := by
  intro r c hr hc
  simp [level?, Grid.get?_of_lt _ hr hc, channel]

theorem reads_meanAt (s : Ssim α) (x y : Grid Pixel h w) {window : Nat} (hh : window ≤ h)
    (hw : window ≤ w) :
    Reads (meanAt? ⟨_, _, s.channelMap (channel (·.r) x) (channel (·.r) y) window hh hw⟩
        ⟨_, _, s.channelMap (channel (·.g) x) (channel (·.g) y) window hh hw⟩
        ⟨_, _, s.channelMap (channel (·.b) x) (channel (·.b) y) window hh hw⟩)
      (s.pixelMap x y window hh hw) := by
  intro r c hr hc
  simp [meanAt?, Grid.get?_of_lt _ hr hc, pixelMap, Grid.ofFn]

omit [Scalar α] in
theorem window?_eq (s : Ssim α) (h w : Nat) : s.window? h w = some (s.effectiveWindow? h w) := by
  simp only [window?, effectiveWindow?]
  split
  · rfl
  · split
    · rw [difference?_eq (by omega)]
      rfl
    · rfl

theorem mapOf?_eq (h0 : (0.0 + 0.0 : α) = 0.0) (s : Ssim α) (x y : Grid Pixel h w) {window : Nat}
    (hh : window ≤ h) (hw : window ≤ w) :
    s.mapOf? ⟨h, w, x⟩ ⟨h, w, y⟩ window = some ⟨_, _, s.pixelMap x y window hh hw⟩ := by
  have hmean := Grid.ofCells?_eq (s.reads_meanAt x y hh hw)
  simp [mapOf?, difference?_eq hh, difference?_eq hw, hmean,
    s.channelMap?_eq h0 (reads_level _ x) (reads_level _ y) hh hw]

theorem computeMap_small (s : Ssim α) (x y : Grid Pixel h w)
    (hsmall : s.effectiveWindow? h w = none) :
    s.computeMap ⟨h, w, x⟩ ⟨h, w, y⟩ =
      .error (.invalidParameter (.window s.windowSize w h)) := by
  rw [computeMap, dif_pos ⟨rfl, rfl⟩]
  split
  · rfl
  · rename_i hsome
    rw [hsmall] at hsome
    cases hsome

theorem computeMap?_mk (h0 : (0.0 + 0.0 : α) = 0.0) (s : Ssim α) (x y : Grid Pixel h w) :
    s.computeMap? ⟨h, w, x⟩ ⟨h, w, y⟩ = some (s.computeMap ⟨h, w, x⟩ ⟨h, w, y⟩) := by
  have hsize : (⟨h, w, x⟩ : RgbImage).dimensions = (⟨h, w, y⟩ : RgbImage).dimensions := rfl
  rw [computeMap?, if_pos hsize, window?_eq]
  cases hwindow : s.effectiveWindow? h w with
  | none =>
    rw [computeMap_small s x y hwindow]
    rfl
  | some n =>
    obtain ⟨-, hh, hw⟩ := effectiveWindow?_le hwindow
    rw [computeMap_mk s x y hwindow]
    simp [mapOf?_eq h0 s x y hh hw]

theorem dimensions_eq_iff (lhs rhs : RgbImage) :
    lhs.dimensions = rhs.dimensions ↔ rhs.height = lhs.height ∧ rhs.width = lhs.width := by
  rw [Raster.dimensions, Raster.dimensions, Prod.mk.injEq]
  constructor
  · rintro ⟨hw, hh⟩
    exact ⟨hh.symm, hw.symm⟩
  · rintro ⟨hh, hw⟩
    exact ⟨hw.symm, hh.symm⟩

theorem computeMap_sizes (s : Ssim α) {lhs rhs : RgbImage}
    (hsize : lhs.dimensions ≠ rhs.dimensions) :
    s.computeMap lhs rhs =
      .error (.invalidParameter (.imageSizes lhs.dimensions rhs.dimensions)) := by
  rw [computeMap, dif_neg (mt (dimensions_eq_iff lhs rhs).2 hsize)]

theorem computeMap?_eq (h0 : (0.0 + 0.0 : α) = 0.0) (s : Ssim α) (lhs rhs : RgbImage) :
    s.computeMap? lhs rhs = some (s.computeMap lhs rhs) := by
  by_cases hsize : lhs.dimensions = rhs.dimensions
  · obtain ⟨h, w, x⟩ := lhs
    obtain ⟨h', w', y⟩ := rhs
    obtain ⟨rfl, rfl⟩ := (dimensions_eq_iff _ _).1 hsize
    exact computeMap?_mk h0 s x y
  · rw [computeMap?, if_neg hsize, computeMap_sizes s hsize]

omit [Scalar α] in
theorem effectiveWindow?_eq_none_iff {s : Ssim α} :
    s.effectiveWindow? h w = none ↔ min (min s.windowSize h) w < 3 := by
  rw [effectiveWindow?]
  simp only [ite_eq_left_iff, reduceCtorEq, imp_false, not_not]

omit [Scalar α] in
theorem isGreatest_effectiveWindow? {s : Ssim α} {n : Nat}
    (hn : s.effectiveWindow? h w = some n) :
    IsGreatest {k | Odd k ∧ k ≤ min (min s.windowSize h) w} n := by
  simp only [effectiveWindow?] at hn
  split at hn
  · cases hn
  · obtain rfl := Option.some.inj hn
    refine ⟨⟨?_, ?_⟩, fun k hk => ?_⟩
    · rw [Nat.odd_iff]
      split <;> omega
    · split <;> omega
    · obtain ⟨hodd, hle⟩ := hk
      rw [Nat.odd_iff] at hodd
      split <;> omega

/-- Two images have no map and no score exactly if they are of different sizes or no window of three
fits, and the fault is told. Otherwise the window is the greatest odd one that fits, and the map has
an entry for each of its places. In either case the computation with plain numbers comes to the same
end: no difference is below zero, and nothing is read or written outside the images and tables. -/
theorem computeMap_fits (s : Ssim Float) (lhs rhs : RgbImage) :
    s.computeMap? lhs rhs = some (s.computeMap lhs rhs) ∧
    ((∃ fault, s.computeMap lhs rhs = .error (.invalidParameter fault) ∧
        s.compute lhs rhs = .error (.invalidParameter fault)) ↔
      lhs.dimensions ≠ rhs.dimensions ∨ min (min s.windowSize lhs.height) lhs.width < 3) ∧
    (lhs.dimensions = rhs.dimensions → 3 ≤ min (min s.windowSize lhs.height) lhs.width →
      ∃ n map score,
        IsGreatest {k | Odd k ∧ k ≤ min (min s.windowSize lhs.height) lhs.width} n ∧
        s.computeMap lhs rhs = .ok map ∧ s.compute lhs rhs = .ok score ∧
        map.height = lhs.height - n + 1 ∧ map.width = lhs.width - n + 1) := by
  have hfits (hsize : lhs.dimensions = rhs.dimensions)
      (hwindow : 3 ≤ min (min s.windowSize lhs.height) lhs.width) : ∃ n map score,
        IsGreatest {k | Odd k ∧ k ≤ min (min s.windowSize lhs.height) lhs.width} n ∧
        s.computeMap lhs rhs = .ok map ∧ s.compute lhs rhs = .ok score ∧
        map.height = lhs.height - n + 1 ∧ map.width = lhs.width - n + 1 := by
    obtain ⟨h, w, x⟩ := lhs
    obtain ⟨h', w', y⟩ := rhs
    obtain ⟨rfl, rfl⟩ := (dimensions_eq_iff _ _).1 hsize
    obtain ⟨n, hn⟩ := Option.ne_none_iff_exists'.1
      (mt effectiveWindow?_eq_none_iff.1 (Nat.not_lt.2 hwindow))
    have hmap := computeMap_mk s x y hn
    exact ⟨n, _, _, isGreatest_effectiveWindow? hn, hmap, by rw [compute, hmap]; rfl, rfl, rfl⟩
  refine ⟨computeMap?_eq rfl s lhs rhs, ⟨?_, ?_⟩, hfits⟩
  · rintro ⟨fault, hmap, -⟩
    by_contra hnot
    rw [not_or, not_not, Nat.not_lt] at hnot
    obtain ⟨n, map, score, -, hok, -⟩ := hfits hnot.1 hnot.2
    rw [hok] at hmap
    cases hmap
  · intro hbad
    by_cases hsize : lhs.dimensions = rhs.dimensions
    · have hsmall := hbad.resolve_left (not_not.2 hsize)
      obtain ⟨h, w, x⟩ := lhs
      obtain ⟨h', w', y⟩ := rhs
      obtain ⟨rfl, rfl⟩ := (dimensions_eq_iff _ _).1 hsize
      have hmap := computeMap_small s x y (effectiveWindow?_eq_none_iff.2 hsmall)
      exact ⟨_, hmap, by rw [compute, hmap]; rfl⟩
    · have hmap := computeMap_sizes s hsize
      exact ⟨_, hmap, by rw [compute, hmap]; rfl⟩

theorem computeMap_fits_dotted :
    (∃ map score, (default : Ssim Float).computeMap ⟨3, 4, dotted⟩ ⟨3, 4, black⟩ = .ok map ∧
      (default : Ssim Float).compute ⟨3, 4, dotted⟩ ⟨3, 4, black⟩ = .ok score ∧
      map.height = 1 ∧ map.width = 2) ∧
    ∃ fault, (⟨2, 0.01, 0.03, 255.0⟩ : Ssim Float).computeMap ⟨3, 4, dotted⟩ ⟨3, 4, black⟩ =
      .error (.invalidParameter fault) := by
  obtain ⟨-, -, hfits⟩ :=
    computeMap_fits (default : Ssim Float) ⟨3, 4, dotted⟩ ⟨3, 4, black⟩
  obtain ⟨n, map, score, ⟨⟨hodd, hle⟩, hgreatest⟩, hmap, hscore, hheight, hwidth⟩ :=
    hfits rfl (by decide)
  have hthree : n = 3 := le_antisymm hle (hgreatest ⟨by decide, by decide⟩)
  subst hthree
  obtain ⟨-, hrefused, -⟩ :=
    computeMap_fits (⟨2, 0.01, 0.03, 255.0⟩ : Ssim Float) ⟨3, 4, dotted⟩ ⟨3, 4, black⟩
  obtain ⟨fault, hfault, -⟩ := hrefused.2 (.inr (by decide))
  exact ⟨⟨map, score, hmap, hscore, hheight, hwidth⟩, fault, hfault⟩

end Ssim
end TrackingScore
