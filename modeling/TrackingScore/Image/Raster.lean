import TrackingScore.Scalar

/-!
Rectangles of cells, addressed by row and column. The size is part of the type of a grid, so an
access comes with the proof that it lies inside; a raster is a grid of any size.
-/

namespace TrackingScore

abbrev Grid (α : Type) (h w : Nat) := Vector (Vector α w) h

namespace Grid

variable {α β : Type} {h w : Nat}

@[inline] def ofFn (f : Fin h → Fin w → α) : Grid α h w :=
  Vector.ofFn fun row => Vector.ofFn fun col => f row col

def toRows (g : Grid α h w) : List (List α) := g.toList.map Vector.toList

def toCells (g : Grid α h w) : List α := g.toList.flatMap Vector.toList

end Grid

structure Raster (α : Type) where
  height : Nat
  width : Nat
  cells : Grid α height width

namespace Raster

variable {α β : Type}

def toRows (r : Raster α) : List (List α) := r.cells.toRows

def toCells (r : Raster α) : List α := r.cells.toCells

def map (f : α → β) (r : Raster α) : Raster β :=
  ⟨r.height, r.width, Vector.map (Vector.map f) r.cells⟩

/-- Width before height, as the sizes of images are told. -/
def dimensions (r : Raster α) : Nat × Nat := (r.width, r.height)

def ofFn (h w : Nat) (f : Fin h → Fin w → α) : Raster α := ⟨h, w, Grid.ofFn f⟩

def ofRows? (w : Nat) (rows : List (List α)) : Option (Raster α) :=
  if h : ∀ row ∈ rows, row.length = w then
    some ⟨rows.length, w,
      Vector.ofFn fun i => ⟨rows[i].toArray, by simpa using h rows[i] (List.getElem_mem _)⟩⟩
  else none

end Raster

structure Pixel where
  r : UInt8
  g : UInt8
  b : UInt8
  deriving Repr, DecidableEq

abbrev RgbImage := Raster Pixel

abbrev LumaImage := Raster UInt8

def Pixel.channels (p : Pixel) : List UInt8 := [p.r, p.g, p.b]

end TrackingScore
