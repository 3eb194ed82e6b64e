import TrackingScore.Image.Raster

/-!
Brightness: of the pixels of an image as numbers from zero to one, and maps of numbers shown as
images of brightness.
-/

namespace TrackingScore

open Scalar

section Pixels

variable {ρ : Type} [Scalar ρ]

def byteScalar (b : UInt8) : ρ := ofNat b.toNat

def Pixel.luma (p : Pixel) : ρ :=
  (byteScalar p.r * 0.3 + byteScalar p.g * 0.59 + byteScalar p.b * 0.11) * (1.0 / 255.0)

/-- Brightness of the channels of a pixel; fewer than three are taken as gray by the first of them.
Without channels there is none. -/
def lumaOfChannels? : List UInt8 → Option ρ
  | r :: g :: b :: _ => some (Pixel.luma ⟨r, g, b⟩)
  | gray :: _ => some (byteScalar gray / 255.0)
  | [] => none

def RgbImage.luma (image : RgbImage) : Raster ρ := image.map Pixel.luma

end Pixels

section Maps

variable {α : Type} [Scalar α]

def extremes? : List α → Option (α × α)
  | [] => none
  | x :: xs =>
    some (xs.foldl (fun (low, high) y =>
      (if less y low then y else low, if less high y then y else high)) (x, x))

def stretch (low high x : α) : UInt8 :=
  let range := high - low
  let scaled := if less 0.0 range && isFinite x then (x - low) / range * 255.0 else 0.0
  toByte (clamp scaled 0.0 255.0)

/-- Shows the least finite number as black and the greatest as white. Numbers that are not finite
are black, and so is everything if all finite numbers are equal. -/
def Raster.toLumaImage (map : Raster α) : LumaImage :=
  match extremes? (map.toCells.filter isFinite) with
  | some (low, high) => map.map (stretch low high)
  | none => map.map fun _ => 0

end Maps
end TrackingScore
