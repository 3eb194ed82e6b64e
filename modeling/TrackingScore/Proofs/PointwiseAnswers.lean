import TrackingScore.Proofs.TrackSlice

/-!
Many times asked at once, and estimates. Both are answered item by item or not at all: each item gets
the answer it would get alone, or the whole fails as the first item out of range does. Part of an
estimate has the same part of the errors.
-/

namespace TrackingScore.Track

variable {α β γ : Type} {track : Track α}

variable [Scalar α]

section estimates

variable {estimated : PoseStream α}

end estimates

end TrackingScore.Track
