import TrackingScore.Executor
import TrackingScore.Frame.Matching
import TrackingScore.FrameDistance.Diagnostic
import TrackingScore.FrameDistance.Params
import TrackingScore.FrameDistance.Sample
import TrackingScore.Image.Handle
import TrackingScore.Image.Harris
import TrackingScore.Image.Matching
import TrackingScore.Image.Ssim

/-!
Image distances of pairs of frames. Pairs are independent jobs; samples come in the order of the
pairs, whatever order an executor completes them in, and the first failing pair fails the whole.
-/

namespace TrackingScore

/-- Figures of the distances between the matched features of two images, zero without matches. -/
def featureDistance {ρ α : Type} [Scalar ρ] [Scalar α] [Widen ρ α]
    (extractor : FeatureExtractor ρ α) (matcher : DescriptorMatcher ρ α) (lhs rhs : RgbImage) :
    Except (EvalError α) (Summary α) := do
  let left ← extractor.run (RgbImage.luma lhs)
  let right ← extractor.run (RgbImage.luma rhs)
  let matched ← matcher.run left.descriptors right.descriptors
  return .ofValues (matched.map fun m => widen m.distance)

/-- The parts of a comparison of frames. Features are computed in `ρ`, scores in `α`. -/
structure FrameEvaluator (ρ α : Type) where
  similarity : ImageSimilarity α
  extractor : FeatureExtractor ρ α
  matcher : DescriptorMatcher ρ α
  params : FrameDistanceParams α

/-- What an evaluation of pairs gives: the samples, and what came of diagnostics in the order of
completion. -/
structure FrameReport (α : Type) where
  samples : Except (EvalError α) (List (FrameDistanceSample α))
  diagnostics : List (DiagnosticOutcome α)

namespace FrameEvaluator

variable {ρ α H : Type} [Scalar ρ] [Scalar α] [Widen ρ α] [ImageHandle H]

/-- The parts used by default; the extractor keeps as many features as the parameters say. -/
def standard (params : FrameDistanceParams α) : FrameEvaluator ρ α where
  similarity := Ssim.similarity .default
  extractor :=
    HarrisExtractor.extractor α
      { (HarrisExtractor.default : HarrisExtractor ρ) with
        maxFeatures := params.maxFeatures.toNat } (show 81 < 9223372036854775808 by decide)
  matcher := BruteForceMatcher.matcher ρ α ⟨false⟩
  params := params

def load (handle : H) : Except (EvalError α) RgbImage :=
  match ImageHandle.load handle with
  | .ok image => .ok image
  | .error fault => .error (.image fault)

/-- The diagnostic of a pair, if diagnostics are on and this one is drawn. -/
def diagnose (e : FrameEvaluator ρ α) (world : DiagnosticWorld α) (job : Nat) (pair : FramePair H)
    (estimated reference : RgbImage) (ssim : α) : Option (DiagnosticOutcome α) :=
  match e.params.diagnosticDir with
  | none => none
  | some folder =>
    if world.samples job e.params.diagnosticProbability then
      some (world.record job folder (ImageHandle.describe pair.image)
        (ImageHandle.describe pair.referenceImage) (e.similarity.map estimated reference) ssim)
    else none

def evaluatePair (e : FrameEvaluator ρ α) (world : DiagnosticWorld α) (job : Nat)
    (pair : FramePair H) :
    Except (EvalError α) (FrameDistanceSample α × Option (DiagnosticOutcome α)) := do
  let estimated ← load pair.image
  let reference ← load pair.referenceImage
  let ssim ← e.similarity.score estimated reference
  let distance ← featureDistance e.extractor e.matcher estimated reference
  return (⟨pair.timestamp, pair.referenceTimestamp, ssim, distance.median, distance.mean,
    distance.max⟩, e.diagnose world job pair estimated reference ssim)

def evaluateWith (e : FrameEvaluator ρ α) (executor : Executor) (world : DiagnosticWorld α)
    (pairs : List (FramePair H)) : FrameReport α :=
  let tagged := executor.run pairs.length fun i => e.evaluatePair world i.val pairs[i]
  { samples := do
      let results ← inJobOrder tagged pairs.length
      results.mapM fun result => result.map (·.1)
    diagnostics := tagged.filterMap fun (_, result) =>
      match result with
      | .ok (_, outcome) => outcome
      | .error _ => none }

def evaluate (e : FrameEvaluator ρ α) (world : DiagnosticWorld α) (pairs : List (FramePair H)) :
    FrameReport α :=
  e.evaluateWith e.params.executor.executor world pairs

end FrameEvaluator
end TrackingScore
