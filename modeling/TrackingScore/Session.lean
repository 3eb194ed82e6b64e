import TrackingScore.FrameDistance.Evaluator
import TrackingScore.Params
import TrackingScore.Run.Results

/-!
A session evaluates runs against one reference: a track, reference frames, and the transform from
the coordinates of the runs to those of the track.
-/

namespace TrackingScore

structure Session (α H : Type) where
  track : Track α
  /-- May be empty when no run captures frames. -/
  referenceFrames : FrameStream H
  toReference : RigidTransform α
  params : EvalParams α

structure RunReport (α : Type) where
  results : RunResults α
  events : List Event

namespace Session

variable {α H : Type} [Scalar α] [ImageHandle H]

def ofCorrespondence (track : Track α) (referenceFrames : FrameStream H)
    (correspondence : Correspondence α) (params : EvalParams α) :
    Except (EvalError α) (Session α H) := do
  return ⟨track, referenceFrames, ← correspondence.solve params.alignment, params⟩

/-- Errors of the poses of a run, moved into the frame of the track. A run that captured poses has
to give them. -/
def poseErrors (session : Session α H) (config : RunConfig α) (label : String)
    (poses : Option (PoseStream α)) : Except (EvalError α) (List (ErrorSample α) × List Event) :=
  if config.capturePoses then
    match poses with
    | none => .error (.emptyInput (.missingPoses label))
    | some poses => do
      let samples ← session.track.evaluate (session.toReference.transformStream poses)
      return (samples, [.evaluatedPoses samples.length])
  else .ok ([], [])

variable (ρ : Type) [Scalar ρ] [Widen ρ α]

/-- Distances of the frames of a run, if it captured and gave some and there are reference
frames. -/
def frameDistances (session : Session α H) (world : DiagnosticWorld α) (config : RunConfig α)
    (label : String) (frames : Option (FrameStream H)) :
    Except (EvalError α) (List (FrameDistanceSample α) × List Event) :=
  if config.captureFrames then
    match frames with
    | none => .ok ([], [.missingFrames label])
    | some frames =>
      if session.referenceFrames.isEmpty then .ok ([], [.noReferenceFrames label])
      else do
        let pairs ← frames.matchTo session.referenceFrames session.params.matching
        let evaluator : FrameEvaluator ρ α := .standard session.params.frameDistance
        let samples ← (evaluator.evaluate world pairs).samples
        return (samples, frames.matchEvents pairs ++ [.comparedFrames samples.length])
  else .ok ([], [])

/-- Evaluates one run. Poses go before frames, and a run has to name one source of its poses.
`spell` writes the numbers of labels. -/
def evaluateRun (session : Session α H) (world : DiagnosticWorld α) (spell : α → String)
    (config : RunConfig α) (poses : Option (PoseStream α)) (frames : Option (FrameStream H)) :
    Except (EvalError α) (RunReport α) := do
  config.validate
  let label := config.label spell
  let (poseErrors, poseEvents) ← session.poseErrors config label poses
  let (frameDistances, frameEvents) ← session.frameDistances ρ world config label frames
  return ⟨⟨config, poseErrors, frameDistances⟩, poseEvents ++ frameEvents ++
    [.finishedRun label poseErrors.length frameDistances.length]⟩

end Session
end TrackingScore
