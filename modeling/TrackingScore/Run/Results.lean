import TrackingScore.FrameDistance.Sample
import TrackingScore.PoseError
import TrackingScore.Run.Config

/-!
What an evaluation found out about a run, and its JSON form. Two results are the same when their
configurations are.
-/

namespace TrackingScore

open Json (Reader)

namespace ErrorSample

variable {α : Type} (format : Json.NumberFormat α)

def toJson (s : ErrorSample α) : Json :=
  .object [("timestamp", .ofInt64 s.timestamp), ("position_error", format.write s.positionError),
    ("orientation_error", format.write s.orientationError)]

structure Partial (α : Type) where
  timestamp : Option Int64
  position : Option α
  orientation : Option α

def Partial.complete (p : Partial α) : Option (ErrorSample α) := do
  return ⟨← p.timestamp, ← p.position, ← p.orientation⟩

def ofDraft : Reader (ErrorSample α) :=
  Reader.required format
    [Reader.field "timestamp" (Reader.int64 format) fun t p => { p with timestamp := some t },
      Reader.field "position_error" (Reader.number format) fun x p => { p with position := some x },
      Reader.field "orientation_error" (Reader.number format) fun x p =>
        { p with orientation := some x }]
    ⟨none, none, none⟩ Partial.complete

end ErrorSample

structure RunResults (α : Type) where
  config : RunConfig α
  poseErrors : List (ErrorSample α)
  frameDistances : List (FrameDistanceSample α)
  deriving Repr

namespace RunResults

variable {α : Type}

/-- Results that count as one: those of equal configurations. -/
def sameRun [DecidableEq α] (r s : RunResults α) : Bool := r.config = s.config

def poseSummary? [Scalar α] (r : RunResults α) : Option (ErrorSummary α) :=
  (ErrorSummary.ofSamples r.poseErrors).toOption

def frameSummary? [Scalar α] (r : RunResults α) : Option (FrameSummary α) :=
  FrameSummary.ofSamples? r.frameDistances

variable (format : Json.NumberFormat α)

def toJson (r : RunResults α) : Json :=
  .object [("config", r.config.toJson format),
    ("pose_errors", .array (r.poseErrors.map (ErrorSample.toJson format))),
    ("frame_distances", .array (r.frameDistances.map (FrameDistanceSample.toJson format)))]

structure Partial (α : Type) where
  config : Option (RunConfig α)
  poseErrors : Option (List (ErrorSample α))
  frameDistances : Option (List (FrameDistanceSample α))

def Partial.complete (p : Partial α) : Option (RunResults α) := do
  return ⟨← p.config, ← p.poseErrors, ← p.frameDistances⟩

def ofDraft [Scalar α] : Reader (RunResults α) :=
  Reader.required format
    [Reader.field "config" (RunConfig.ofDraft format) fun c p => { p with config := some c },
      Reader.field "pose_errors" (Reader.list format (ErrorSample.ofDraft format)) fun s p =>
        { p with poseErrors := some s },
      Reader.field "frame_distances" (Reader.list format (FrameDistanceSample.ofDraft format))
        fun s p => { p with frameDistances := some s }]
    ⟨none, none, none⟩ Partial.complete

def ofText [Scalar α] (bytes : List UInt8) : Except (EvalError α) (RunResults α) :=
  match Json.read (ofDraft format) bytes with
  | .ok results => .ok results
  | .error fault => .error (.json fault)

end RunResults
end TrackingScore
