import TrackingScore.Error
import TrackingScore.Series

/-!
Timestamped video frames and streams of them. A frame holds a handle to its picture and not the
picture itself.
-/

namespace TrackingScore

structure Frame (H : Type) where
  timestamp : Int64
  image : H
  deriving Repr, DecidableEq

abbrev FrameStream (H : Type) := Series (Frame H) Frame.timestamp

def FrameStream.ofFrames {α H : Type} (frames : List (Frame H)) :
    Except (EvalError α) (FrameStream H) :=
  match Series.ofList frames with
  | .ok stream => .ok stream
  | .error (a, b) => .error (.ingestion (.unorderedFrames a.timestamp b.timestamp))

end TrackingScore
