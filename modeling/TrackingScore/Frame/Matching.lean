import TrackingScore.Event
import TrackingScore.Frame.Nearest
import TrackingScore.Frame.Stream

/-!
Pairs of an estimated frame and the reference frame nearest in time. Frames of the warm-up period,
counted from the first estimated frame, are left out.
-/

namespace TrackingScore

structure MatchParams where
  /-- Length of the warm-up period in nanoseconds. -/
  warmupNs : Int64
  deriving Repr, DecidableEq

def MatchParams.default : MatchParams := ⟨2000000000⟩

structure FramePair (H : Type) where
  timestamp : Int64
  image : H
  referenceTimestamp : Int64
  referenceImage : H
  deriving Repr, DecidableEq

namespace FrameStream

variable {α H : Type}

def nearest? (reference : FrameStream H) (t : Int64) : Option (Frame H) := do
  reference.get? (← nearestIndex reference.times t)

def pairWith (reference : FrameStream H) (frame : Frame H) : Option (FramePair H) :=
  (reference.nearest? frame.timestamp).map fun near =>
    ⟨frame.timestamp, frame.image, near.timestamp, near.image⟩

/-- Frames from the end of the warm-up period on. The end is kept within the range of timestamps. -/
def afterWarmup (estimated : FrameStream H) (params : MatchParams) : List (Frame H) :=
  match estimated.first? with
  | none => []
  | some first =>
    let cutoff := Int64.ofIntClamp (first.timestamp.toInt + params.warmupNs.toInt)
    estimated.toList.filter fun frame => decide (cutoff ≤ frame.timestamp)

def matchTo (estimated reference : FrameStream H) (params : MatchParams) :
    Except (EvalError α) (List (FramePair H)) :=
  if reference.isEmpty then .error (.emptyInput .referenceFrames)
  else .ok ((estimated.afterWarmup params).filterMap reference.pairWith)

/-- What is told about a matching; nothing if there was nothing to match. -/
def matchEvents (estimated : FrameStream H) (pairs : List (FramePair H)) : List Event :=
  if estimated.isEmpty then []
  else [.matchedFrames pairs.length (estimated.length - pairs.length)]

end FrameStream
end TrackingScore
