import TrackingScore.Json.Decode
import TrackingScore.Statistics

/-!
Image distances of a pair of frames, and figures that sum up those of a run.
-/

namespace TrackingScore

open Json (Reader)

structure FrameDistanceSample (α : Type) where
  timestamp : Int64
  referenceTimestamp : Int64
  ssim : α
  medianFeatureDistance : α
  meanFeatureDistance : α
  maxFeatureDistance : α
  deriving Repr, DecidableEq

namespace FrameDistanceSample

variable {α : Type} (format : Json.NumberFormat α)

def toJson (s : FrameDistanceSample α) : Json :=
  .object [("timestamp", .ofInt64 s.timestamp),
    ("matched_gt_timestamp", .ofInt64 s.referenceTimestamp),
    ("ssim", format.write s.ssim),
    ("median_feature_distance", format.write s.medianFeatureDistance),
    ("mean_feature_distance", format.write s.meanFeatureDistance),
    ("max_feature_distance", format.write s.maxFeatureDistance)]

structure Partial (α : Type) where
  timestamp : Option Int64
  referenceTimestamp : Option Int64
  ssim : Option α
  median : Option α
  mean : Option α
  max : Option α

def Partial.complete (p : Partial α) : Option (FrameDistanceSample α) := do
  return ⟨← p.timestamp, ← p.referenceTimestamp, ← p.ssim, ← p.median, ← p.mean, ← p.max⟩

def ofDraft : Reader (FrameDistanceSample α) :=
  Reader.required format
    [Reader.field "timestamp" (Reader.int64 format) fun t p => { p with timestamp := some t },
      Reader.field "matched_gt_timestamp" (Reader.int64 format) fun t p =>
        { p with referenceTimestamp := some t },
      Reader.field "ssim" (Reader.number format) fun x p => { p with ssim := some x },
      Reader.field "median_feature_distance" (Reader.number format) fun x p =>
        { p with median := some x },
      Reader.field "mean_feature_distance" (Reader.number format) fun x p => { p with mean := some x },
      Reader.field "max_feature_distance" (Reader.number format) fun x p => { p with max := some x }]
    ⟨none, none, none, none, none, none⟩ Partial.complete

end FrameDistanceSample

structure FrameSummary (α : Type) where
  count : Nat
  ssim : ColumnSummary α
  meanFeatureDistance : ColumnSummary α
  deriving Repr, DecidableEq

def FrameSummary.ofSamples? {α : Type} [Scalar α] (samples : List (FrameDistanceSample α)) :
    Option (FrameSummary α) :=
  if samples.isEmpty then none
  else some ⟨samples.length, .ofValues (samples.map (·.ssim)),
    .ofValues (samples.map (·.meanFeatureDistance))⟩

end TrackingScore
