import TrackingScore.Proofs.NearestFrame
import TrackingScore.Proofs.SilentDiagnostics
import TrackingScore.Proofs.TrackScore
import TrackingScore.Session

/-!
What becomes of a run. The number of pose sources decides first, then the poses, then the frames, and a
stream that was not captured decides nothing.
-/

namespace TrackingScore

namespace FrameEvaluator

variable {ρ α H : Type} [Scalar ρ] [Scalar α] [Widen ρ α] [ImageHandle H] {e : FrameEvaluator ρ α}

theorem timestamp_of_compare {pair : FramePair H} {sample : FrameDistanceSample α}
    (h : e.compare pair = .ok sample) : sample.timestamp = pair.timestamp := by
  simp only [compare, bind_eq_ok_iff] at h
  obtain ⟨_, _, _, _, _, _, _, _, hsample⟩ := h
  exact congrArg FrameDistanceSample.timestamp (Except.ok.inj hsample).symm

end FrameEvaluator

def DiagnosticWorld.quiet {α : Type} : DiagnosticWorld α := ⟨fun _ _ => false, fun _ _ _ => .ok ()⟩

namespace RunConfig

variable {α : Type} {config : RunConfig α}

theorem validate_of_sources_eq (h : config.sources = 1) : config.validate = .ok () :=
  if_pos h

theorem validate_of_sources_ne (h : config.sources ≠ 1) :
    config.validate = .error (.invalidParameter (.poseSources config.sources)) :=
  if_neg h

theorem validate_eq_ok_iff : config.validate = .ok () ↔ config.sources = 1 := by
  refine ⟨fun hok => ?_, validate_of_sources_eq⟩
  by_contra h
  rw [validate_of_sources_ne h] at hok
  cases hok

end RunConfig

namespace Session

variable {ρ α H : Type} [Scalar ρ] [Scalar α] [Widen ρ α] [ImageHandle H]

/-- Whether nothing is wrong with the poses of a run: none were captured, or some are given and all
lie in the range of the track. -/
def PosesFit (session : Session α H) (config : RunConfig α) (poses : Option (PoseStream α)) : Prop :=
  config.capturePoses = true → ∃ stream, poses = some stream ∧ stream.toList ≠ [] ∧
    ∀ pose ∈ stream.toList, session.track.contains pose.timestamp = true

/-- The frames that a run is compared by, if it captured and gave some and there are any to compare
them with. -/
def comparedFrames (session : Session α H) (config : RunConfig α)
    (frames : Option (FrameStream H)) : Option (FrameStream H) :=
  if config.captureFrames = true ∧ session.referenceFrames.toList ≠ [] then frames else none

def scorePoses (session : Session α H) (config : RunConfig α) (label : String)
    (poses : Option (PoseStream α)) : Except (EvalError α) (List (ErrorSample α)) :=
  if config.capturePoses = true then
    match poses with
    | none => .error (.emptyInput (.missingPoses label))
    | some stream => session.track.evaluate (session.toReference.transformStream stream)
  else .ok []

variable (ρ) in
def scoreFrames (session : Session α H) (world : DiagnosticWorld α) (frames : FrameStream H) :
    Except (EvalError α) (List (FrameDistanceSample α)) := do
  let pairs ← frames.matchTo session.referenceFrames session.params.matching
  let evaluator : FrameEvaluator ρ α := .standard session.params.frameDistance
  (evaluator.evaluate world pairs).samples

variable (ρ) in
def scoreComparedFrames (session : Session α H) (world : DiagnosticWorld α) (config : RunConfig α)
    (frames : Option (FrameStream H)) : Except (EvalError α) (List (FrameDistanceSample α)) :=
  match session.comparedFrames config frames with
  | none => .ok []
  | some stream => session.scoreFrames ρ world stream

section parts

variable (session : Session α H) (world : DiagnosticWorld α) (config : RunConfig α) (label : String)
  (poses : Option (PoseStream α)) (frames : Option (FrameStream H))

omit [ImageHandle H] in
theorem poseErrors_map :
    (session.poseErrors config label poses).map (·.1) = session.scorePoses config label poses := by
  unfold poseErrors scorePoses
  split
  · cases poses with
    | none => rfl
    | some stream =>
      rw [bind_map]
      exact bind_pure _
  · rfl

theorem frameDistances_map :
    (session.frameDistances ρ world config label frames).map (·.1) =
      session.scoreComparedFrames ρ world config frames := by
  unfold frameDistances scoreComparedFrames comparedFrames
  cases hcapture : config.captureFrames with
  | false => simp [Except.map]
  | true =>
    cases frames with
    | none => simp [Except.map]
    | some stream =>
      by_cases hempty : session.referenceFrames.toList = []
      · simp [Series.isEmpty, hempty, Except.map]
      · simp only [Series.isEmpty, hempty, List.isEmpty_iff, if_true, if_false, ne_eq,
          not_false_eq_true, and_self, bind_map, scoreFrames]
        exact bind_congr fun pairs => bind_pure _

theorem evaluateRun_map (spell : α → String) :
    (session.evaluateRun ρ world spell config poses frames).map (·.results) = do
      config.validate
      let poseErrors ← session.scorePoses config (config.label spell) poses
      let frameDistances ← session.scoreComparedFrames ρ world config frames
      return ⟨config, poseErrors, frameDistances⟩ := by
  rw [← poseErrors_map, ← frameDistances_map _ _ _ (config.label spell)]
  unfold evaluateRun
  dsimp only
  cases config.validate with
  | error => rfl
  | ok =>
    cases session.poseErrors config (config.label spell) poses with
    | error => rfl
    | ok =>
      cases session.frameDistances ρ world config (config.label spell) frames <;> rfl

theorem scoreFrames_world (world' : DiagnosticWorld α) (frames : FrameStream H) :
    session.scoreFrames ρ world frames = session.scoreFrames ρ world' frames := by
  -- diagnostics are silent, and all else is the same in both worlds
  simp only [scoreFrames, FrameEvaluator.evaluate_samples]

theorem scoreComparedFrames_world (world' : DiagnosticWorld α) :
    session.scoreComparedFrames ρ world config frames =
      session.scoreComparedFrames ρ world' config frames := by
  simp only [scoreComparedFrames, session.scoreFrames_world world world']

end parts

variable {session : Session α H} {world : DiagnosticWorld α} {config : RunConfig α} {label : String}
  {poses : Option (PoseStream α)} {frames : Option (FrameStream H)} {stream : PoseStream α}

omit [ImageHandle H] in
theorem firstOutside?_transformStream :
    session.track.firstOutside? (session.toReference.transformStream stream) =
      (session.track.firstOutside? stream).map session.toReference.transformPose := by
  rw [Track.firstOutside?, RigidTransform.transformStream_toList, List.find?_map]
  rfl

section poses

variable (h : config.capturePoses = true)
include h

omit [ImageHandle H]

theorem scorePoses_of_none :
    session.scorePoses config label none = .error (.emptyInput (.missingPoses label)) :=
  if_pos h

theorem scorePoses_of_some :
    session.scorePoses config label (some stream) =
      session.track.evaluate (session.toReference.transformStream stream) :=
  if_pos h

theorem scorePoses_of_empty (hempty : stream.toList = []) :
    session.scorePoses config label (some stream) = .error (.emptyInput .estimatedPoses) := by
  rw [scorePoses_of_some h, Track.evaluate_of_empty]
  rw [RigidTransform.transformStream_toList, hempty, List.map_nil]

theorem scorePoses_of_outside {pose : Pose α}
    (hout : session.track.firstOutside? stream = some pose) :
    session.scorePoses config label (some stream) =
      .error (.outOfRange pose.timestamp session.track.first session.track.last) := by
  have hmoved : session.track.firstOutside? (session.toReference.transformStream stream) =
      some (session.toReference.transformPose pose) := by
    rw [firstOutside?_transformStream, hout]
    rfl
  rw [scorePoses_of_some h, Track.evaluate_of_firstOutside? hmoved,
    RigidTransform.transformPose_timestamp]

end poses

omit [ImageHandle H] in
theorem scorePoses_of_posesFit (h : session.PosesFit config poses) (label : String) :
    ∃ samples, session.scorePoses config label poses = .ok samples ∧
      (config.capturePoses = false → samples = []) ∧
      (config.capturePoses = true → ∃ stream, poses = some stream ∧
        session.track.evaluate (session.toReference.transformStream stream) = .ok samples ∧
        samples.map (·.timestamp) = stream.times) := by
  cases hcapture : config.capturePoses with
  | false => exact ⟨[], if_neg (by simp [hcapture]), by simp⟩
  | true =>
    obtain ⟨stream, rfl, hne, hinside⟩ := h hcapture
    have hmoved : ∀ pose ∈ (session.toReference.transformStream stream).toList,
        session.track.contains pose.timestamp = true := by
      simpa using hinside
    obtain ⟨samples, hsamples, htimes⟩ := Track.evaluate_of_contains (by simpa using hne) hmoved
    refine ⟨samples, (scorePoses_of_some hcapture).trans hsamples, by simp, fun _ => ?_⟩
    exact ⟨stream, rfl, hsamples, htimes.trans (stream.times_map _ _)⟩

theorem exists_pairs_of_scoreFrames {frames : FrameStream H}
    {samples : List (FrameDistanceSample α)}
    (h : session.scoreFrames ρ world frames = .ok samples) :
    ∃ pairs, (frames.matchTo session.referenceFrames session.params.matching :
        Except (EvalError α) (List (FramePair H))) = .ok pairs ∧
      ((.standard session.params.frameDistance : FrameEvaluator ρ α).evaluate world pairs).samples =
        .ok samples ∧
      samples.map (·.timestamp) = pairs.map (·.timestamp) := by
  obtain ⟨pairs, hpairs, hsamples⟩ := bind_eq_ok_iff.1 h
  refine ⟨pairs, hpairs, hsamples, ?_⟩
  rw [FrameEvaluator.evaluate_samples] at hsamples
  exact map_eq_map_of_mapM (fun _ _ => FrameEvaluator.timestamp_of_compare) hsamples

theorem exists_scoreComparedFrames
    (h : ∀ stream, session.comparedFrames config frames = some stream →
      ∃ samples, session.scoreFrames ρ world stream = .ok samples) :
    ∃ samples, session.scoreComparedFrames ρ world config frames = .ok samples ∧
      (session.comparedFrames config frames = none → samples = []) ∧
      ∀ stream, session.comparedFrames config frames = some stream →
        session.scoreFrames ρ world stream = .ok samples := by
  unfold scoreComparedFrames
  cases hcompared : session.comparedFrames config frames with
  | none => exact ⟨[], rfl, fun _ => rfl, nofun⟩
  | some stream =>
    obtain ⟨samples, hsamples⟩ := h stream hcompared
    refine ⟨samples, hsamples, nofun, ?_⟩
    rintro _ ⟨⟩
    exact hsamples

theorem scoreComparedFrames_of_not_captured (h : config.captureFrames = false) :
    session.scoreComparedFrames ρ world config frames = .ok [] := by
  rw [scoreComparedFrames, comparedFrames, if_neg (by simp [h])]

section run

variable {spell : α → String}

theorem evaluateRun_of_sources_ne (h : config.sources ≠ 1) :
    session.evaluateRun ρ world spell config poses frames =
      .error (.invalidParameter (.poseSources config.sources)) := by
  rw [evaluateRun, RunConfig.validate_of_sources_ne h]
  rfl

variable (h : config.sources = 1)
include h

theorem evaluateRun_of_scorePoses_error {error : EvalError α}
    (hposes : session.scorePoses config (config.label spell) poses = .error error) :
    session.evaluateRun ρ world spell config poses frames = .error error := by
  rw [← map_eq_error_iff (f := (·.results)), evaluateRun_map, RunConfig.validate_of_sources_eq h, hposes]
  rfl

variable {samples : List (ErrorSample α)}
  (hposes : session.scorePoses config (config.label spell) poses = .ok samples)
include hposes

theorem evaluateRun_of_scoreComparedFrames_error {error : EvalError α}
    (hframes : session.scoreComparedFrames ρ world config frames = .error error) :
    session.evaluateRun ρ world spell config poses frames = .error error := by
  rw [← map_eq_error_iff (f := (·.results)), evaluateRun_map, RunConfig.validate_of_sources_eq h, hposes,
    hframes]
  rfl

theorem evaluateRun_of_scores {distances : List (FrameDistanceSample α)}
    (hframes : session.scoreComparedFrames ρ world config frames = .ok distances) :
    ∃ report, session.evaluateRun ρ world spell config poses frames = .ok report ∧
      report.results = ⟨config, samples, distances⟩ := by
  rw [← map_eq_ok_iff, evaluateRun_map, RunConfig.validate_of_sources_eq h, hposes, hframes]
  rfl

end run

variable (ρ) in
/-- What the results of a run hold: the configuration, the errors of its poses and the distances of
its frames, if it captured them and they could be compared. -/
structure ResultsOf (session : Session α H) (world : DiagnosticWorld α) (config : RunConfig α)
    (poses : Option (PoseStream α)) (frames : Option (FrameStream H)) (results : RunResults α) :
    Prop where
  config_eq : results.config = config
  poseErrors_eq_nil : config.capturePoses = false → results.poseErrors = []
  poseErrors_eq : config.capturePoses = true → ∃ stream, poses = some stream ∧
    session.track.evaluate (session.toReference.transformStream stream) = .ok results.poseErrors ∧
    results.poseErrors.map (·.timestamp) = stream.times
  frameDistances_eq_nil : session.comparedFrames config frames = none → results.frameDistances = []
  frameDistances_eq : ∀ stream, session.comparedFrames config frames = some stream →
    ∃ pairs, (stream.matchTo session.referenceFrames session.params.matching :
        Except (EvalError α) (List (FramePair H))) = .ok pairs ∧
      ((.standard session.params.frameDistance : FrameEvaluator ρ α).evaluate world pairs).samples =
        .ok results.frameDistances ∧
      results.frameDistances.map (·.timestamp) = pairs.map (·.timestamp)

theorem evaluateRun_of_posesFit {spell : α → String} (h : config.sources = 1)
    (hposes : session.PosesFit config poses) :
    (∀ stream error, session.comparedFrames config frames = some stream →
        session.scoreFrames ρ world stream = .error error →
        session.evaluateRun ρ world spell config poses frames = .error error) ∧
      ((∀ stream, session.comparedFrames config frames = some stream →
          ∃ samples, session.scoreFrames ρ world stream = .ok samples) →
        ∃ report, session.evaluateRun ρ world spell config poses frames = .ok report ∧
          session.ResultsOf ρ world config poses frames report.results) := by
  obtain ⟨samples, hsamples, hnil, hcaptured⟩ :=
    scorePoses_of_posesFit hposes (config.label spell)
  constructor
  · intro stream error hcompared herror
    refine evaluateRun_of_scoreComparedFrames_error h hsamples ?_
    rw [scoreComparedFrames, hcompared]
    exact herror
  · intro hframes
    obtain ⟨distances, hdistances, hnone, hsome⟩ := exists_scoreComparedFrames hframes
    obtain ⟨report, hreport, hresults⟩ := evaluateRun_of_scores h hsamples hdistances
    refine ⟨report, hreport, ?_⟩
    rw [hresults]
    exact ⟨rfl, hnil, hcaptured, hnone,
      fun stream hstream => exists_pairs_of_scoreFrames (hsome stream hstream)⟩

theorem evaluateRun_congr {spell : α → String} {world' : DiagnosticWorld α}
    {poses' : Option (PoseStream α)} {frames' : Option (FrameStream H)}
    (hposes : config.capturePoses = true → poses = poses')
    (hframes : config.captureFrames = true → session.referenceFrames.toList ≠ [] →
      frames = frames') :
    (session.evaluateRun ρ world spell config poses frames).map (·.results) =
      (session.evaluateRun ρ world' spell config poses' frames').map (·.results) := by
  have hscores (label : String) :
      session.scorePoses config label poses = session.scorePoses config label poses' := by
    unfold scorePoses
    split
    · rw [hposes ‹_›]
    · rfl
  have hcompared : session.comparedFrames config frames = session.comparedFrames config frames' := by
    unfold comparedFrames
    split
    · rename_i hcompared
      exact hframes hcompared.1 hcompared.2
    · rfl
  rw [evaluateRun_map, evaluateRun_map, hscores, session.scoreComparedFrames_world world _ _ world',
    scoreComparedFrames, scoreComparedFrames, hcompared]

/-- What becomes of a run, case by case. The number of its pose sources decides whatever the streams;
then its poses, if captured, whatever the frames; then the frames it is compared by. If nothing is
wrong with these, there are results, and streams that a run did not capture leave no trace in them. -/
theorem evaluateRun_cases (session : Session α H) (world : DiagnosticWorld α) (spell : α → String)
    (config : RunConfig α) (poses : Option (PoseStream α)) (frames : Option (FrameStream H)) :
    (config.sources ≠ 1 → session.evaluateRun ρ world spell config poses frames =
        .error (.invalidParameter (.poseSources config.sources))) ∧
      (config.sources = 1 → config.capturePoses = true →
        (poses = none → session.evaluateRun ρ world spell config poses frames =
          .error (.emptyInput (.missingPoses (config.label spell)))) ∧
        ∀ stream, poses = some stream →
          (stream.toList = [] → session.evaluateRun ρ world spell config poses frames =
            .error (.emptyInput .estimatedPoses)) ∧
          ((∃ pose ∈ stream.toList, session.track.contains pose.timestamp = false) →
            ∃ pose, session.track.firstOutside? stream = some pose ∧
              session.evaluateRun ρ world spell config poses frames =
                .error (.outOfRange pose.timestamp session.track.first session.track.last))) ∧
      (config.sources = 1 → session.PosesFit config poses →
        (∀ stream error, session.comparedFrames config frames = some stream →
          session.scoreFrames ρ world stream = .error error →
          session.evaluateRun ρ world spell config poses frames = .error error) ∧
        ((∀ stream, session.comparedFrames config frames = some stream →
            ∃ samples, session.scoreFrames ρ world stream = .ok samples) →
          ∃ report, session.evaluateRun ρ world spell config poses frames = .ok report ∧
            session.ResultsOf ρ world config poses frames report.results)) ∧
      ∀ (world' : DiagnosticWorld α) (poses' : Option (PoseStream α))
        (frames' : Option (FrameStream H)),
        (config.capturePoses = true → poses = poses') →
        (config.captureFrames = true → session.referenceFrames.toList ≠ [] → frames = frames') →
        (session.evaluateRun ρ world spell config poses frames).map (·.results) =
          (session.evaluateRun ρ world' spell config poses' frames').map (·.results) := by
  refine ⟨evaluateRun_of_sources_ne, fun hsources hcapture => ⟨?_, ?_⟩,
    fun hsources => evaluateRun_of_posesFit hsources, fun _ _ _ => evaluateRun_congr⟩
  · rintro rfl
    exact evaluateRun_of_scorePoses_error hsources (scorePoses_of_none hcapture)
  · rintro stream rfl
    constructor
    · intro hempty
      exact evaluateRun_of_scorePoses_error hsources (scorePoses_of_empty hcapture hempty)
    · intro houtside
      obtain ⟨pose, hpose⟩ := Option.isSome_iff_exists.1 (Track.firstOutside?_isSome_iff.2 houtside)
      exact ⟨pose, hpose,
        evaluateRun_of_scorePoses_error hsources (scorePoses_of_outside hcapture hpose)⟩

def lostReference : Session Float PictureSource where
  track := Track.halfTurn
  referenceFrames := ⟨[⟨0, .file "reference" (.error .notFound)⟩], List.pairwise_singleton _ _⟩
  toReference := ⟨⟨5.0, 4.0, 0.0⟩, ⟨0.0, 0.0, 0.0, 1.0⟩⟩
  params := { EvalParams.default "" with matching := ⟨0⟩ }

def resting (t : Int64) : PoseStream Float :=
  ⟨[⟨t, ⟨2.0, 0.0, 0.0⟩, .identity⟩], List.pairwise_singleton _ _⟩

theorem positionError_resting {samples : List (ErrorSample Float)}
    (h : lostReference.track.evaluate (lostReference.toReference.transformStream (resting 0)) =
      .ok samples) : samples.map (·.positionError) = [5.0] := by
  have hanswers : Track.halfTurn.Answers 0 .zero .identity :=
    Track.halfTurn.answers_of_stored (i := 0) (by decide) rfl
  have hmoved : positionError
      (lostReference.toReference.transformPoint ⟨2.0, 0.0, 0.0⟩) .zero = 5.0 := by
    decide +kernel
  have herror : lostReference.track.errorOf
      (lostReference.toReference.transformPose ⟨0, ⟨2.0, 0.0, 0.0⟩, .identity⟩) = .ok ⟨0, _, _⟩ :=
    hanswers.errorOf_eq
  rw [Track.evaluate_of_ne_nil (List.cons_ne_nil _ _)] at h
  obtain rfl := Except.ok.inj ((mapM_eq_ok_iff.2 (.cons herror .nil)).symm.trans h)
  exact congrArg (fun error => [error]) hmoved

def spoiled : FrameStream PictureSource :=
  ⟨[⟨0, .file "estimate" (.error .undecodable)⟩], List.pairwise_singleton _ _⟩

theorem scoreFrames_spoiled :
    lostReference.scoreFrames Float .quiet spoiled = .error (.image .undecodable) := by
  have hnearest : nearestIndex lostReference.referenceFrames.times 0 = some 0 := by decide +kernel
  have hpair : lostReference.referenceFrames.pairWith ⟨0, .file "estimate" (.error .undecodable)⟩ =
      some ⟨0, .file "estimate" (.error .undecodable), 0, .file "reference" (.error .notFound)⟩ := by
    rw [FrameStream.pairWith, FrameStream.nearest?, hnearest]
    rfl
  have hpairs : (spoiled.matchTo lostReference.referenceFrames lostReference.params.matching :
      Except (EvalError Float) _) =
        .ok [⟨0, .file "estimate" (.error .undecodable), 0, .file "reference" (.error .notFound)⟩] :=
    congrArg Except.ok (List.filterMap_cons_some hpair)
  rw [scoreFrames, hpairs]
  exact FrameEvaluator.evaluate_samples _ _ _

def runLost (config : RunConfig Float) (t : Int64) : Except (EvalError Float) (RunReport Float) :=
  lostReference.evaluateRun Float .quiet (fun _ => "") config (some (resting t)) (some spoiled)

theorem evaluateRun_cases_lostReference :
    runLost { RunConfig.reference with groundTruth := false } (-1) =
        .error (.invalidParameter (.poseSources 0)) ∧
      runLost .reference (-1) = .error (.outOfRange (-1) 0 Int64.maxValue) ∧
      runLost .reference 5 = .error (.image .undecodable) ∧
      ∃ report, runLost { RunConfig.reference with captureFrames := false } 0 = .ok report ∧
        report.results.poseErrors.map (·.timestamp) = [0] ∧
        report.results.poseErrors.map (·.positionError) = [5.0] ∧
        report.results.frameDistances = [] := by
  have hfit (t : Int64) (ht : ∀ pose ∈ (resting t).toList,
      lostReference.track.contains pose.timestamp = true) :
      lostReference.PosesFit .reference (some (resting t)) :=
    fun _ => ⟨_, rfl, List.cons_ne_nil _ _, ht⟩
  have hcases (config : RunConfig Float) (t : Int64) := evaluateRun_cases lostReference
    (ρ := Float) .quiet (fun _ => "") config (some (resting t)) (some spoiled)
  refine ⟨(hcases _ _).1 (by decide), ?_, ?_, ?_⟩
  · obtain ⟨pose, hpose, hrun⟩ := ((hcases .reference (-1)).2.1 rfl rfl).2 _ rfl |>.2
      ⟨_, List.mem_singleton_self _, by decide⟩
    obtain rfl := Option.some.inj hpose
    exact hrun
  · exact ((hcases .reference 5).2.2.1 rfl (hfit 5 (by decide))).1 _ _ rfl scoreFrames_spoiled
  · have hnone : ∀ stream, lostReference.comparedFrames
        { RunConfig.reference with captureFrames := false } (some spoiled) = some stream →
        ∃ samples, lostReference.scoreFrames Float .quiet stream = .ok samples := by
      intro stream hstream
      cases hstream
    obtain ⟨report, hreport, hresults⟩ :=
      ((hcases { RunConfig.reference with captureFrames := false } 0).2.2.1 rfl (hfit 0 (by decide))).2
        hnone
    obtain ⟨stream, hstream, hevaluate, htimes⟩ := hresults.poseErrors_eq rfl
    obtain rfl := Option.some.inj hstream
    exact ⟨report, hreport, htimes, positionError_resting hevaluate,
      hresults.frameDistances_eq_nil rfl⟩

end Session

end TrackingScore
