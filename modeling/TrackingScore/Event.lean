/-!
What an evaluation tells about its progress, beside its results.
-/

namespace TrackingScore

inductive Event where
  | evaluatedPoses (count : Nat)
  | matchedFrames (kept discarded : Nat)
  | comparedFrames (count : Nat)
  | noReferenceFrames (run : String)
  | missingFrames (run : String)
  | finishedRun (run : String) (poseErrors frameDistances : Nat)
  deriving Repr, DecidableEq

inductive Event.Level where
  | info
  | warning
  deriving Repr, DecidableEq

namespace Event

def level : Event → Level
  | noReferenceFrames _ => .warning
  | missingFrames _ => .warning
  | _ => .info

def message : Event → String
  | evaluatedPoses count => s!"Evaluated the error of {count} poses"
  | matchedFrames kept discarded =>
    s!"Matched {kept} frames, {discarded} discarded by the warm-up period"
  | comparedFrames count => s!"Computed the image distances of {count} frame pairs"
  | noReferenceFrames run => s!"No reference frames, skipping the frames of run {run}"
  | missingFrames run => s!"Run {run} captured frames but none were given"
  | finishedRun run poseErrors frameDistances =>
    s!"Run {run}: {poseErrors} pose errors, {frameDistances} frame distances"

def line (event : Event) : String :=
  match event.level with
  | .info => "INFO " ++ event.message
  | .warning => "WARN " ++ event.message

end Event
end TrackingScore
