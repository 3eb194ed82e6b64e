import TrackingScore.Proofs.NearestFrame

/-!
The end of the warm-up period against the exact time between two frames. The end is kept within the
words of time. That changes nothing below the last word, because no frame comes later: only a frame
at the last word itself is kept although the period ends behind it.
-/

namespace TrackingScore.FrameStream

variable {α H : Type} {estimated reference : FrameStream H} {params : MatchParams}

/-- Whether a frame comes a whole warm-up period after the first one, or later. -/
def WaitsOut (estimated : FrameStream H) (params : MatchParams) (frame : Frame H) : Prop :=
  ∀ first ∈ estimated.toList.head?,
    params.warmupNs.toInt ≤ frame.timestamp.toInt - first.timestamp.toInt

instance : DecidablePred (estimated.WaitsOut params) :=
  fun _ => inferInstanceAs (Decidable (∀ first ∈ estimated.toList.head?, _))

/-- Whether the warm-up period ends behind the last word of time. -/
def Outlasts (estimated : FrameStream H) (params : MatchParams) : Prop :=
  ∃ first ∈ estimated.toList.head?,
    Int64.maxValue.toInt < first.timestamp.toInt + params.warmupNs.toInt

instance : Decidable (estimated.Outlasts params) :=
  inferInstanceAs (Decidable (∃ first ∈ estimated.toList.head?, _))

/-- A word lies behind an end that is kept within the words if it lies behind the exact end, or if it
is the last word. -/
theorem clamped_le_iff (t : Int64) (n : Int) :
    max Int64.minValue.toInt (min n Int64.maxValue.toInt) ≤ t.toInt ↔
      n ≤ t.toInt ∨ t = Int64.maxValue ∧ Int64.maxValue.toInt < n := by
  have hlow := Int64.minValue_le_toInt t
  have hhigh := Int64.toInt_le t
  rw [← Int64.toInt_inj]
  omega

theorem pastWarmup_iff {frame : Frame H} (hframe : frame ∈ estimated.toList) :
    estimated.PastWarmup params frame ↔
      estimated.WaitsOut params frame ∨
        frame.timestamp = Int64.maxValue ∧ estimated.Outlasts params := by
  obtain ⟨first, rest, hlist⟩ := List.exists_cons_of_ne_nil (List.ne_nil_of_mem hframe)
  have hexact : first.timestamp.toInt + params.warmupNs.toInt ≤ frame.timestamp.toInt ↔
      params.warmupNs.toInt ≤ frame.timestamp.toInt - first.timestamp.toInt := by omega
  simp only [PastWarmup, WaitsOut, Outlasts, hlist, List.head?_cons, Option.mem_some_iff,
    forall_eq', exists_eq_left', clamped_le_iff, hexact]

theorem matchTo_of_ne_nil (hne : reference.toList ≠ []) :
    (estimated.matchTo reference params : Except (EvalError α) _) =
      .ok ((estimated.afterWarmup params).filterMap reference.pairWith) := by
  rw [matchTo, if_neg (by simp [Series.isEmpty, hne])]

/-- The frames of a matching are those that come a whole warm-up period after the first one, and one
at the last word of time if the period ends behind it. -/
theorem mem_matchTo_iff (estimated reference : FrameStream H) (params : MatchParams)
    (hne : reference.toList ≠ []) :
    ∃ pairs : List (FramePair H),
      (estimated.matchTo reference params : Except (EvalError α) _) = .ok pairs ∧
        (∀ frame, frame ∈ pairs.map FramePair.estimated ↔
          frame ∈ estimated.toList ∧
            (estimated.WaitsOut params frame ∨
              frame.timestamp = Int64.maxValue ∧ estimated.Outlasts params)) := by
  refine ⟨_, matchTo_of_ne_nil hne, fun frame => ?_⟩
  rw [map_estimated_filterMap hne, afterWarmup_eq, List.mem_filter, decide_eq_true_iff]
  exact and_congr_right pastWarmup_iff

def lastMoments : FrameStream Nat :=
  ⟨[⟨9223372036854775806, 0⟩, ⟨9223372036854775807, 1⟩], by decide⟩

def atZero : FrameStream Nat := ⟨[⟨0, 0⟩], by decide⟩

theorem mem_matchTo_iff_lastMoments :
    atZero.toList ≠ [] ∧ ∃ pairs : List (FramePair Nat),
      (lastMoments.matchTo atZero ⟨1⟩ : Except (EvalError Float) _) = .ok pairs ∧
        ⟨9223372036854775806, 0⟩ ∉ pairs.map FramePair.estimated ∧
        ⟨9223372036854775807, 1⟩ ∈ pairs.map FramePair.estimated := by
  obtain ⟨pairs, hok, hmem⟩ := mem_matchTo_iff lastMoments atZero ⟨1⟩ (by decide)
  exact ⟨by decide, pairs, hok, fun h => absurd ((hmem _).1 h) (by decide),
    (hmem _).2 (by decide)⟩

/-- A warm-up period of five nanoseconds that the stream ends in: the last frame is kept one
nanosecond after the first. -/
theorem matchTo_keeps_early_frame :
    ∃ pairs : List (FramePair Nat),
      (lastMoments.matchTo atZero ⟨5⟩ : Except (EvalError Float) _) = .ok pairs ∧
        ⟨9223372036854775807, 1⟩ ∈ pairs.map FramePair.estimated ∧
        ¬ lastMoments.WaitsOut ⟨5⟩ ⟨9223372036854775807, 1⟩ := by
  refine ⟨_, matchTo_of_ne_nil (by decide), ?_, by decide⟩
  rw [map_estimated_filterMap (by decide), afterWarmup_eq]
  decide

end TrackingScore.FrameStream
