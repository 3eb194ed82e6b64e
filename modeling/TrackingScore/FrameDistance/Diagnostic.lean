import TrackingScore.Error
import TrackingScore.Image.Luma

/-!
Diagnostic pictures of compared pairs. Whether one is made is a matter of chance, and storing it
may fail; both are given from outside, and neither is seen in a result.
-/

namespace TrackingScore

open Scalar

structure DiagnosticEntry (α : Type) where
  estimated : String
  reference : String
  picture : LumaImage
  ssim : α

namespace DiagnosticEntry

def lines {α : Type} (spell : α → String) (path : String) (entry : DiagnosticEntry α) :
    List String :=
  ["ssim", entry.estimated, entry.reference, path, spell entry.ssim, ""]

end DiagnosticEntry

/-- What the steps of storing an entry come to. -/
structure DiagnosticDisk where
  createFolder : String → Except FileFault Unit
  savePicture : String → LumaImage → Except FileFault String
  appendLog : String → List String → Except FileFault Unit

/-- Makes the folder, saves the picture there and adds to the log; the first step that fails ends it. -/
def DiagnosticDisk.store {α : Type} (disk : DiagnosticDisk) (spell : α → String) (folder : String)
    (entry : DiagnosticEntry α) : Except FileFault Unit := do
  disk.createFolder folder
  let path ← disk.savePicture folder entry.picture
  disk.appendLog folder (entry.lines spell path)

/-- Chance and storage, as the outcomes they have for each job. -/
structure DiagnosticWorld (α : Type) where
  draw : Nat → α → Bool
  store : Nat → String → DiagnosticEntry α → Except FileFault Unit

inductive DiagnosticOutcome (α : Type) where
  | written (entry : DiagnosticEntry α)
  | failed (error : EvalError α)

/-- Whether the diagnostic of a job is made. Probabilities are brought between zero and one, and
below or at zero nothing is drawn. -/
def DiagnosticWorld.samples {α : Type} [Scalar α] (world : DiagnosticWorld α) (job : Nat)
    (probability : α) : Bool :=
  let p := clamp probability 0.0 1.0
  less 0.0 p && world.draw job p

def DiagnosticWorld.record {α : Type} [Scalar α] (world : DiagnosticWorld α) (job : Nat)
    (folder estimated reference : String) (map : Except (EvalError α) (Raster α)) (ssim : α) :
    DiagnosticOutcome α :=
  match map with
  | .error error => .failed error
  | .ok map =>
    let entry : DiagnosticEntry α := ⟨estimated, reference, map.toLumaImage, ssim⟩
    match world.store job folder entry with
    | .ok () => .written entry
    | .error fault => .failed (.io fault)

end TrackingScore
