import TrackingScore.FrameDistance.Sample
import TrackingScore.PoseError

/-!
Written tables of samples: a header and a line per sample, or nothing at all without samples. How
numbers are spelled is left open as `spell`.
-/

namespace TrackingScore.Table

variable {α : Type}

def line (fields : List String) : String := String.intercalate "," fields ++ "\n"

def withHeader (header : List String) (rows : List (List String)) : String :=
  if rows.isEmpty then "" else String.join ((header :: rows).map line)

def errorHeader : List String := ["timestamp", "position_error", "orientation_error"]

def errorRow (spell : α → String) (s : ErrorSample α) : List String :=
  [toString s.timestamp, spell s.positionError, spell s.orientationError]

def errorTable (spell : α → String) (samples : List (ErrorSample α)) : String :=
  withHeader errorHeader (samples.map (errorRow spell))

def frameDistanceHeader : List String :=
  ["timestamp", "matched_gt_timestamp", "ssim", "median_feature_distance",
    "mean_feature_distance", "max_feature_distance"]

def frameDistanceRow (spell : α → String) (s : FrameDistanceSample α) : List String :=
  [toString s.timestamp, toString s.referenceTimestamp, spell s.ssim,
    spell s.medianFeatureDistance, spell s.meanFeatureDistance, spell s.maxFeatureDistance]

def frameDistanceTable (spell : α → String) (samples : List (FrameDistanceSample α)) : String :=
  withHeader frameDistanceHeader (samples.map (frameDistanceRow spell))

/-- What a file holds after a text was written to it; the folder has to be there. -/
def written (folderExists : Bool) (text : String) : Except (EvalError α) String :=
  if folderExists then .ok text else .error (.csv .notFound)

end TrackingScore.Table
