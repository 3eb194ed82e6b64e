import Mathlib.Data.List.Perm.Basic
import TrackingScore.Proofs.CompletionOrder

/-!
Diagnostics are a side channel. Whether a picture is drawn for a pair, what its map of similarity is and
whether it can be stored decides nothing about samples: an evaluation gives what the bare comparison of
the pairs gives.
-/

namespace TrackingScore

namespace DiagnosticWorld

open Scalar

/-- Two worlds alike in all events of a probability above zero and not above one. -/
def SameChance (world world' : DiagnosticWorld Float) : Prop :=
  ∀ job p, less 0.0 p = true → less 1.0 p = false → world.draw job p = world'.draw job p

theorem samples_congr {world world' : DiagnosticWorld Float} (h : SameChance world world')
    (job : Nat) (probability : Float) :
    world.samples job probability = world'.samples job probability := by
  have hdraw : ∀ p : Float, less 1.0 p = false →
      (less 0.0 p && world.draw job p) = (less 0.0 p && world'.draw job p) := by
    intro p hp
    cases hpos : less 0.0 p with
    | false => rfl
    | true => rw [h job p hpos hp]
  refine hdraw (clamp probability 0.0 1.0) ?_
  -- the probability is brought down to one first, and is none at all if it is not a number
  rw [clamp]
  split
  · decide
  · split
    · decide
    · rename_i hhigh
      exact Bool.eq_false_iff.2 hhigh

end DiagnosticWorld

namespace FrameEvaluator

open List

variable {ρ α H : Type} [Scalar ρ] [Scalar α] [Widen ρ α] [ImageHandle H]

def withDiagnostics (e : FrameEvaluator ρ α) (probability : α) (folder : Option String)
    (map : RgbImage → RgbImage → Except (EvalError α) (Raster α)) : FrameEvaluator ρ α :=
  { e with
    similarity := { e.similarity with map := map }
    params := { e.params with diagnosticProbability := probability, diagnosticDir := folder } }

/-- Sample of a pair, from its pictures alone. -/
def compare (e : FrameEvaluator ρ α) (pair : FramePair H) :
    Except (EvalError α) (FrameDistanceSample α) := do
  let estimated ← load pair.image
  let reference ← load pair.referenceImage
  let ssim ← e.similarity.score estimated reference
  let distance ← featureDistance e.extractor e.matcher estimated reference
  return ⟨pair.timestamp, pair.referenceTimestamp, ssim, distance.median, distance.mean,
    distance.max⟩

theorem evaluatePair_map (e : FrameEvaluator ρ α) (world : DiagnosticWorld α) (job : Nat)
    (pair : FramePair H) : (e.evaluatePair world job pair).map (·.1) = e.compare pair := by
  change (·.1) <$> e.evaluatePair world job pair = _
  simp only [evaluatePair, compare, map_bind, map_pure]

variable (e : FrameEvaluator ρ α) (world : DiagnosticWorld α) (pairs : List (FramePair H))

theorem samples_eq_compare {executor : Executor} (h : executor.Completes (e.outcome world pairs)) :
    (e.evaluateWith executor world pairs).samples = pairs.mapM e.compare := by
  rw [samples_of_completes h]
  refine mapM_eq_mapM (forall₂_iff_get.2 ⟨length_ofFn, fun i _ hi => ?_⟩)
  rw [get_ofFn]
  exact e.evaluatePair_map world i pairs[i]

theorem evaluate_samples : (e.evaluate world pairs).samples = pairs.mapM e.compare := by
  have hexecutor : e.params.executor.executor = .sequential := by cases e.params.executor <;> rfl
  rw [evaluate, hexecutor]
  exact e.samples_eq_compare world pairs (Executor.completes_sequential _)

theorem samples_inOrder (order : (jobs : Nat) → List (Fin jobs)) :
    (e.evaluateWith (.inOrder order) world pairs).samples =
      if (order pairs.length).Perm (finRange pairs.length) then pairs.mapM e.compare
      else .error (.invalidParameter
        (.jobResults (order pairs.length).length pairs.length)) := by
  split
  · rename_i hperm
    exact e.samples_eq_compare world pairs (Executor.completes_inOrder hperm _)
  · rename_i hperm
    have htags : ¬ (((Executor.inOrder order).run pairs.length (e.outcome world pairs)).map
        (·.1)).Perm (range pairs.length) := by
      rw [← map_coe_finRange_eq_range, Executor.inOrder, map_map]
      exact mt (map_perm_map_iff Fin.val_injective).1 hperm
    rw [samples_of_not_perm htags, Executor.inOrder, length_map]

/-- Evaluators that differ in their diagnostics only give the same samples or fail alike, in worlds
where chance and storage have any outcomes and whatever the order of completion. What they give is
what comparing the pairs gives, so that no failure of a diagnostic is in it. Chance is asked about
probabilities above zero and not above one only, whatever number is set. -/
theorem samples_withDiagnostics (e : FrameEvaluator ρ α) (pairs : List (FramePair H))
    (world world' : DiagnosticWorld α) (probability probability' : α) (folder folder' : Option String)
    (map map' : RgbImage → RgbImage → Except (EvalError α) (Raster α)) :
    ((e.withDiagnostics probability folder map).evaluate world pairs).samples =
        ((e.withDiagnostics probability' folder' map').evaluate world' pairs).samples ∧
      ((e.withDiagnostics probability folder map).evaluate world pairs).samples =
        pairs.mapM e.compare ∧
      (∀ order : (jobs : Nat) → List (Fin jobs),
        ((e.withDiagnostics probability folder map).evaluateWith (.inOrder order) world pairs).samples =
          ((e.withDiagnostics probability' folder' map').evaluateWith (.inOrder order) world'
            pairs).samples) ∧
      (∀ executor executor' : Executor,
        executor.Completes ((e.withDiagnostics probability folder map).outcome world pairs) →
        executor'.Completes ((e.withDiagnostics probability' folder' map').outcome world' pairs) →
        ((e.withDiagnostics probability folder map).evaluateWith executor world pairs).samples =
          ((e.withDiagnostics probability' folder' map').evaluateWith executor' world'
            pairs).samples) ∧
      ∀ asked asked' : DiagnosticWorld Float, asked.SameChance asked' →
        ∀ job number, asked.samples job number = asked'.samples job number := by
  refine ⟨?_, evaluate_samples _ world pairs, fun order => ?_, fun executor executor' h h' => ?_,
    fun _ _ => DiagnosticWorld.samples_congr⟩
  · rw [evaluate_samples, evaluate_samples]
    rfl
  · rw [samples_inOrder, samples_inOrder]
    rfl
  · rw [samples_eq_compare _ world pairs h, samples_eq_compare _ world' pairs h']
    rfl

def fullDisk : DiagnosticDisk where
  createFolder _ := .ok ()
  savePicture _ _ := .error .notFound
  appendLog _ _ := .ok ()

def overlikely : DiagnosticWorld Float :=
  ⟨fun _ p => Scalar.less 1.0 p, fun _ => fullDisk.store fun _ => ""⟩

theorem samples_withDiagnostics_fullDisk :
    (((uniform.withDiagnostics 7.0 (some "maps") fun _ _ => .ok ⟨0, 0, #v[]⟩).evaluateWith
          (.inOrder fun jobs => (finRange jobs).reverse)
          ⟨fun _ _ => true, fun _ => fullDisk.store fun _ => ""⟩ brokenPairs).samples =
        ((uniform.withDiagnostics (0.0 / 0.0) none fun _ _ => .error (.image .undecodable)).evaluateWith
          .sequential ⟨fun _ _ => false, fun _ _ _ => .ok ()⟩ brokenPairs).samples) ∧
      ((uniform.withDiagnostics 7.0 (some "maps") fun _ _ => .ok ⟨0, 0, #v[]⟩).evaluate
          ⟨fun _ _ => true, fun _ => fullDisk.store fun _ => ""⟩ (brokenPairs.take 1)).samples =
        .ok [⟨0, 0, 1.0, 0.0, 0.0, 0.0⟩] ∧
      overlikely.samples 0 7.0 = false := by
  refine ⟨?_, ?_, ?_⟩
  · exact (samples_withDiagnostics uniform brokenPairs _ _ _ _ _ _ _ _).2.2.2.1 _ _
      (Executor.completes_inOrder (reverse_perm _) _) (Executor.completes_sequential _)
  · rw [(samples_withDiagnostics uniform (brokenPairs.take 1) _ ⟨fun _ _ => false, fun _ _ _ => .ok ()⟩
      _ 0.0 _ none _ fun _ _ => .error (.image .undecodable)).2.1]
    rfl
  · let never : DiagnosticWorld Float := ⟨fun _ _ => false, fun _ _ _ => .ok ()⟩
    have hchance : overlikely.SameChance never := fun _ _ _ hp => hp
    let unmapped : RgbImage → RgbImage → Except (EvalError Float) (Raster Float) :=
      fun _ _ => .error (.image .undecodable)
    rw [(samples_withDiagnostics uniform brokenPairs never never 0.0 0.0 none none unmapped
      unmapped).2.2.2.2 overlikely never hchance 0 7.0]
    exact Bool.and_false (Scalar.less 0.0 (Scalar.clamp 7.0 0.0 1.0))

end FrameEvaluator

end TrackingScore
