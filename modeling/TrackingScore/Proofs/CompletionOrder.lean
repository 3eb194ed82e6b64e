import Mathlib.Data.List.Sort
import TrackingScore.FrameDistance.Evaluator
import TrackingScore.Proofs.FirstFailure

/-!
The order in which an executor completes its jobs does not show in the samples. Tagged results are
accepted exactly when the tags are the numbers of all jobs, each once; they then come back in the
order of the jobs, so the first failing pair decides and not the first failure in time.
-/

namespace TrackingScore

open List

variable {α β : Type}

/-- The tagged results in the order of their tags. -/
def byTag (tagged : List (Nat × β)) : List (Nat × β) :=
  tagged.mergeSort fun a b => decide (a.1 ≤ b.1)

theorem byTag_perm (tagged : List (Nat × β)) : (byTag tagged).Perm tagged :=
  mergeSort_perm _ _

theorem pairwise_tags_byTag (tagged : List (Nat × β)) :
    ((byTag tagged).map (·.1)).Pairwise (· ≤ ·) := by
  rw [pairwise_map]
  refine (pairwise_mergeSort ?_ ?_ tagged).imp (by simp)
  · intro a b c hab hbc
    simp only [decide_eq_true_eq] at hab hbc ⊢
    omega
  · intro a b
    simp only [Bool.or_eq_true, decide_eq_true_eq]
    omega

theorem tags_byTag_eq_range_iff {tagged : List (Nat × β)} {n : Nat} :
    (byTag tagged).map (·.1) = range n ↔ (tagged.map (·.1)).Perm (range n) := by
  have hperm := (byTag_perm tagged).map (·.1)
  constructor
  · intro h
    exact h ▸ hperm.symm
  · intro h
    refine (hperm.trans h).eq_of_pairwise (fun a b _ _ => Nat.le_antisymm)
      (pairwise_tags_byTag tagged) ?_
    exact pairwise_lt_range.imp Nat.le_of_lt

theorem inJobOrder_of_perm {tagged : List (Nat × β)} {jobs : Nat}
    (h : (tagged.map (·.1)).Perm (range jobs)) :
    (inJobOrder tagged jobs : Except (EvalError α) (List β)) = .ok ((byTag tagged).map (·.2)) := by
  have hlength : tagged.length = jobs := by simpa using h.length_eq
  have htags := tags_byTag_eq_range_iff.2 h
  rw [inJobOrder, if_pos]
  · rfl
  · simpa [hlength, byTag] using htags

theorem inJobOrder_of_not_perm {tagged : List (Nat × β)} {jobs : Nat}
    (h : ¬ (tagged.map (·.1)).Perm (range jobs)) :
    (inJobOrder tagged jobs : Except (EvalError α) (List β)) =
      .error (.invalidParameter (.jobResults tagged.length jobs)) := by
  rw [inJobOrder, if_neg]
  intro hcond
  simp only [Bool.and_eq_true, decide_eq_true_eq] at hcond
  obtain ⟨hlength, htags⟩ := hcond
  exact h (tags_byTag_eq_range_iff.1 (hlength ▸ htags))

namespace Executor

/-- What a run of an executor owes its caller: every job once, in any order, each with its own
result. -/
structure Completes {n : Nat} (executor : Executor) (job : Fin n → β) : Prop where
  once : ((executor.run n job).map (·.1)).Perm (range n)
  own : ∀ result ∈ executor.run n job, ∃ i : Fin n, result = (i.val, job i)

theorem completes_inOrder {order : (jobs : Nat) → List (Fin jobs)} {n : Nat}
    (h : (order n).Perm (finRange n)) (job : Fin n → β) : (inOrder order).Completes job where
  once := by
    have hmap := h.map Fin.val
    simpa [inOrder, Function.comp_def] using hmap
  own result hresult := by
    obtain ⟨i, _, rfl⟩ := mem_map.1 hresult
    exact ⟨i, rfl⟩

theorem completes_sequential {n : Nat} (job : Fin n → β) : sequential.Completes job :=
  completes_inOrder (Perm.refl _) job

theorem inJobOrder_run {n : Nat} {executor : Executor} {job : Fin n → β}
    (h : executor.Completes job) :
    (inJobOrder (executor.run n job) n : Except (EvalError α) (List β)) = .ok (ofFn job) := by
  rw [inJobOrder_of_perm h.once]
  have htags := tags_byTag_eq_range_iff.2 h.once
  have hlength : (byTag (executor.run n job)).length = n := by simpa using congrArg length htags
  refine congrArg _ (ext_getElem (by simpa using hlength) fun i hi _ => ?_)
  have hi' : i < (byTag (executor.run n job)).length := by simpa using hi
  obtain ⟨k, hk⟩ := h.own _ ((byTag_perm _).mem_iff.1 (getElem_mem hi'))
  have htag : ((byTag (executor.run n job))[i]).1 = i := by
    have := getElem_of_eq htags (i := i) (by simpa using hi)
    rwa [getElem_map, getElem_range] at this
  obtain rfl : k.val = i := by rw [hk] at htag; exact htag
  rw [getElem_map, List.getElem_ofFn, hk]

end Executor

namespace FrameEvaluator

variable {ρ H : Type} [Scalar ρ] [Scalar α] [Widen ρ α] [ImageHandle H]

def outcome (e : FrameEvaluator ρ α) (world : DiagnosticWorld α) (pairs : List (FramePair H))
    (i : Fin pairs.length) :
    Except (EvalError α) (FrameDistanceSample α × Option (DiagnosticOutcome α)) :=
  e.evaluatePair world i.val (pairs.get i)

variable {e : FrameEvaluator ρ α} {executor : Executor} {world : DiagnosticWorld α}
  {pairs : List (FramePair H)}

theorem samples_of_completes (h : executor.Completes (e.outcome world pairs)) :
    (e.evaluateWith executor world pairs).samples =
      (ofFn (e.outcome world pairs)).mapM fun result => result.map (·.1) := by
  change (inJobOrder (executor.run pairs.length (e.outcome world pairs)) pairs.length >>= _) = _
  rw [Executor.inJobOrder_run h]
  rfl

theorem samples_of_not_perm
    (h : ¬ ((executor.run pairs.length (e.outcome world pairs)).map (·.1)).Perm
      (range pairs.length)) :
    (e.evaluateWith executor world pairs).samples = .error (.invalidParameter
      (.jobResults (executor.run pairs.length (e.outcome world pairs)).length pairs.length)) := by
  change (inJobOrder (executor.run pairs.length (e.outcome world pairs)) pairs.length >>= _) = _
  rw [inJobOrder_of_not_perm h]
  rfl

theorem samples_eq_ok_iff (h : executor.Completes (e.outcome world pairs))
    {samples : List (FrameDistanceSample α)} :
    (e.evaluateWith executor world pairs).samples = .ok samples ↔
      samples.length = pairs.length ∧ ∀ (i : Fin pairs.length) (hi : i.val < samples.length),
        ∃ diagnostic, e.outcome world pairs i = .ok (samples[i.val], diagnostic) := by
  rw [samples_of_completes h, mapM_eq_ok_iff, forall₂_iff_get]
  simp only [length_ofFn, get_eq_getElem, List.getElem_ofFn, map_eq_ok_iff, Prod.exists]
  constructor
  · rintro ⟨hlength, hsamples⟩
    refine ⟨hlength.symm, fun i hi => ?_⟩
    obtain ⟨sample, diagnostic, houtcome, rfl⟩ := hsamples i.val i.isLt hi
    exact ⟨diagnostic, houtcome⟩
  · rintro ⟨hlength, hsamples⟩
    refine ⟨hlength.symm, fun i hi hs => ?_⟩
    obtain ⟨diagnostic, houtcome⟩ := hsamples ⟨i, hi⟩ hs
    exact ⟨_, diagnostic, houtcome, rfl⟩

theorem samples_eq_error_iff (h : executor.Completes (e.outcome world pairs))
    {error : EvalError α} :
    (e.evaluateWith executor world pairs).samples = .error error ↔
      ∃ i, e.outcome world pairs i = .error error ∧
        ∀ j < i, ∃ result, e.outcome world pairs j = .ok result := by
  rw [samples_of_completes h, mapM_eq_error_iff]
  simp only [length_ofFn, List.getElem_ofFn, map_eq_ok_iff, map_eq_error_iff]
  constructor
  · rintro ⟨i, hi, hfail, hbefore⟩
    refine ⟨⟨i, hi⟩, hfail, fun j hj => ?_⟩
    obtain ⟨_, result, hresult, _⟩ := hbefore j.val hj
    exact ⟨result, hresult⟩
  · rintro ⟨i, hfail, hbefore⟩
    refine ⟨i.val, i.isLt, hfail, fun j hj => ?_⟩
    obtain ⟨result, hresult⟩ := hbefore ⟨j, hj.trans i.isLt⟩ hj
    exact ⟨result.1, result, hresult, rfl⟩

/-- An executor that completes every job gives the samples of sequential evaluation: one for each
pair in the order of the pairs, or the error of the first failing pair. An executor whose tags are
not the numbers of the jobs, each once, gives no samples. -/
theorem evaluateWith_samples (e : FrameEvaluator ρ α) (executor : Executor)
    (world : DiagnosticWorld α) (pairs : List (FramePair H)) :
    (executor.Completes (e.outcome world pairs) →
      (e.evaluateWith executor world pairs).samples =
          (e.evaluateWith .sequential world pairs).samples ∧
        (∀ samples, (e.evaluateWith executor world pairs).samples = .ok samples ↔
          samples.length = pairs.length ∧ ∀ (i : Fin pairs.length) (_ : i.val < samples.length),
            ∃ diagnostic, e.outcome world pairs i = .ok (samples[i.val], diagnostic)) ∧
        (∀ error, (e.evaluateWith executor world pairs).samples = .error error ↔
          ∃ i, e.outcome world pairs i = .error error ∧
            ∀ j < i, ∃ result, e.outcome world pairs j = .ok result)) ∧
      (¬ ((executor.run pairs.length (e.outcome world pairs)).map (·.1)).Perm
          (range pairs.length) →
        (e.evaluateWith executor world pairs).samples = .error (.invalidParameter
          (.jobResults (executor.run pairs.length (e.outcome world pairs)).length
            pairs.length))) := by
  refine ⟨fun h => ⟨?_, fun _ => samples_eq_ok_iff h, fun _ => samples_eq_error_iff h⟩,
    samples_of_not_perm⟩
  rw [samples_of_completes h, samples_of_completes (Executor.completes_sequential _)]

def uniform : FrameEvaluator Float Float where
  similarity := ⟨fun _ _ => .ok 1.0, fun _ _ => .error (.image .undecodable)⟩
  extractor := ⟨fun _ => .ok ⟨[], .empty 0⟩⟩
  matcher := ⟨fun _ _ => .ok []⟩
  params := .default ""

def brokenPairs : List (FramePair PictureSource) :=
  [⟨0, .memory ⟨0, 0, #v[]⟩, 0, .memory ⟨0, 0, #v[]⟩⟩,
    ⟨1, .memory ⟨0, 0, #v[]⟩, 1, .file "b" (.error .notFound)⟩,
    ⟨2, .memory ⟨0, 0, #v[]⟩, 2, .file "c" (.error .undecodable)⟩]

theorem evaluateWith_samples_brokenPairs :
    (uniform.evaluateWith (.inOrder fun jobs => (finRange jobs).reverse)
        ⟨fun _ _ => false, fun _ _ _ => .ok ()⟩ brokenPairs).samples = .error (.image .notFound) ∧
      (uniform.evaluateWith (.inOrder fun jobs => (finRange jobs).flatMap fun _ =>
          (finRange jobs).take 1) ⟨fun _ _ => false, fun _ _ _ => .ok ()⟩ brokenPairs).samples =
        .error (.invalidParameter (.jobResults 3 3)) := by
  constructor
  · have h := (evaluateWith_samples uniform (.inOrder fun jobs => (finRange jobs).reverse)
      ⟨fun _ _ => false, fun _ _ _ => .ok ()⟩ brokenPairs).1
      (Executor.completes_inOrder (reverse_perm _) _)
    refine (h.2.2 _).2 ⟨⟨1, by decide⟩, rfl, fun j hj => ?_⟩
    obtain rfl : j = ⟨0, by decide⟩ := Fin.ext (Nat.lt_one_iff.1 hj)
    exact ⟨_, rfl⟩
  · exact (evaluateWith_samples uniform _ ⟨fun _ _ => false, fun _ _ _ => .ok ()⟩
      brokenPairs).2 (by decide)

end FrameEvaluator

end TrackingScore
