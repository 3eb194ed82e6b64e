import TrackingScore.Error
import TrackingScore.Image.Raster

/-!
Handles to pictures: kept in memory, or files that are decoded when they are needed.
-/

namespace TrackingScore

class ImageHandle (H : Type) where
  load : H → Except ImageFault RgbImage
  describe : H → String

instance : ImageHandle RgbImage where
  load image := .ok image
  describe image := s!"<in-memory {image.width}x{image.height}>"

inductive PictureSource where
  | memory (image : RgbImage)
  /-- A path, and what decoding the file there gives. -/
  | file (path : String) (content : Except ImageFault RgbImage)

instance : ImageHandle PictureSource where
  load
    | .memory image => .ok image
    | .file _ content => content
  describe
    | .memory image => ImageHandle.describe image
    | .file path _ => path

end TrackingScore
