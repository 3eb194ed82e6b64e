import Mathlib.Data.Set.Function
import TrackingScore.Proofs.JsonRecord
import TrackingScore.Proofs.MemoSource
import TrackingScore.Proofs.WrittenNumber
import TrackingScore.Run.Config

/-!
Fingerprints of runs. They are texts in JSON, which has no text for a number that is not finite; apart
from that they tell runs apart. A memo that has hashes of fingerprints for keys answers a run with values
of runs that have the same fingerprint.
-/

namespace TrackingScore

open Json (draft binary64 Reader)

/-! ## Texts that tell values apart -/

namespace Json

def finite? (x : Float) : Option Float := if x.isFinite then some x else none

theorem ofFloat_congr {x y : Float} (h : finite? x = finite? y) : ofFloat x = ofFloat y := by
  unfold finite? at h
  unfold ofFloat
  by_cases hx : x.isFinite = true <;> by_cases hy : y.isFinite = true <;> simp_all

theorem finite?_eq_of_draft {x y : Float} (h : draft (ofFloat x) = draft (ofFloat y)) :
    finite? x = finite? y := by
  unfold ofFloat at h
  unfold finite?
  by_cases hx : x.isFinite = true
  · by_cases hy : y.isFinite = true
    · rw [if_pos hx, if_pos hy, draft, draft] at h
      rw [eq_of_text_eq hx hy (Draft.number.inj h).1]
    · rw [if_pos hx, if_neg hy] at h
      cases h
  · by_cases hy : y.isFinite = true
    · rw [if_neg hx, if_pos hy] at h
      cases h
    · rw [if_neg hx, if_neg hy]

theorem eq_of_finite? {x y : Float} (hx : x.isFinite = true) (h : finite? x = finite? y) : x = y := by
  unfold finite? at h
  rw [if_pos hx] at h
  split at h
  · exact Option.some.inj h
  · cases h

theorem int64_eq_of_draft {s t : Int64} (h : draft (ofInt64 s) = draft (ofInt64 t)) : s = t := by
  -- reading undoes writing
  have hread := congrArg (Reader.int64 binary64) h
  rw [Reader.int64_draft, Reader.int64_draft] at hread
  exact Except.ok.inj hread

theorem uint64_eq_of_draft {m n : UInt64} (h : draft (ofUInt64 m) = draft (ofUInt64 n)) : m = n := by
  have hread := congrArg (Reader.uint64 binary64) h
  rw [Reader.uint64_draft, Reader.uint64_draft] at hread
  exact Except.ok.inj hread

theorem draft_object_ne_null (members : List (String × Json)) : draft (.object members) ≠ .null := by
  rw [draft]
  nofun

theorem map_eq_of_draft {σ τ : Type} {encode : σ → Json} {known : σ → τ}
    (hnull : ∀ x, draft (encode x) ≠ .null)
    (hknown : ∀ x y, draft (encode x) = draft (encode y) → known x = known y) {o o' : Option σ}
    (h : draft (ofOption encode o) = draft (ofOption encode o')) : o.map known = o'.map known := by
  cases o with
  | none =>
    cases o' with
    | none => rfl
    | some y => exact absurd h.symm (hnull y)
  | some x =>
    cases o' with
    | none => exact absurd h (hnull x)
    | some y => exact congrArg some (hknown x y h)

end Json

/-! ## Runs -/

namespace Noise

def numbers {α : Type} (n : Noise α) : List α :=
  [n.positionOffset, n.positionStddev, n.orientationOffset, n.orientationStddev]

def written (n : Noise Float) : Noise (Option Float) :=
  ⟨Json.finite? n.positionOffset, Json.finite? n.positionStddev, Json.finite? n.orientationOffset,
    Json.finite? n.orientationStddev⟩

theorem numbers_toJson (n : Noise Float) : Json.Numbers (n.toJson binary64).spellings := by
  simp [toJson, binary64, Json.spellings, Json.spellingsOfMembers]

theorem written_eq_of_draft {n k : Noise Float}
    (h : draft (n.toJson binary64) = draft (k.toJson binary64)) : n.written = k.written := by
  simp only [toJson, draft, Json.draftMembers, Json.Draft.object.injEq, List.cons.injEq,
    Prod.mk.injEq, true_and, and_true] at h
  obtain ⟨hoffset, hstddev, horientation, horientationStddev⟩ := h
  rw [written, written, Json.finite?_eq_of_draft hoffset, Json.finite?_eq_of_draft hstddev,
    Json.finite?_eq_of_draft horientation, Json.finite?_eq_of_draft horientationStddev]

theorem toJson_congr {n k : Noise Float} (h : n.written = k.written) :
    n.toJson binary64 = k.toJson binary64 := by
  obtain ⟨hoffset, hstddev, horientation, horientationStddev⟩ := Noise.mk.inj h
  simp only [toJson, binary64, Json.ofFloat_congr hoffset, Json.ofFloat_congr hstddev,
    Json.ofFloat_congr horientation, Json.ofFloat_congr horientationStddev]

theorem eq_of_written {n k : Noise Float} (hn : ∀ x ∈ n.numbers, x.isFinite = true)
    (h : n.written = k.written) : n = k := by
  simp only [numbers, List.forall_mem_cons] at hn
  obtain ⟨hoffset, hstddev, horientation, horientationStddev, -⟩ := hn
  obtain ⟨hsame, hsameStddev, hsameOrientation, hsameOrientationStddev⟩ := Noise.mk.inj h
  cases n
  cases k
  rw [mk.injEq]
  exact ⟨Json.eq_of_finite? hoffset hsame, Json.eq_of_finite? hstddev hsameStddev,
    Json.eq_of_finite? horientation hsameOrientation,
    Json.eq_of_finite? horientationStddev hsameOrientationStddev⟩

end Noise

theorem ApproxConfig.numbers_toJson (a : ApproxConfig) : Json.Numbers a.toJson.spellings := by
  simp [toJson, Json.spellings, Json.spellingsOfMembers]

theorem ApproxConfig.eq_of_draft {a b : ApproxConfig} (h : draft a.toJson = draft b.toJson) : a = b := by
  simp only [toJson, draft, Json.draftMembers, Json.Draft.object.injEq, List.cons.injEq,
    Prod.mk.injEq, Json.Draft.bool.injEq, true_and, and_true] at h
  obtain ⟨hpoints, hrk4, hstereo, hklt, htimewarp⟩ := h
  cases a
  cases b
  rw [mk.injEq]
  exact ⟨Json.uint64_eq_of_draft hpoints, hrk4, hstereo, hklt, htimewarp⟩

namespace RunConfig

variable {c d : RunConfig Float}

/-- A run as far as JSON has a text for it: numbers that are not finite are all one. -/
def written (c : RunConfig Float) : RunConfig (Option Float) where
  captureFrames := c.captureFrames
  capturePoses := c.capturePoses
  noise := c.noise.map Noise.written
  approx := c.approx
  groundTruth := c.groundTruth
  startTimeNs := c.startTimeNs

def Finite (c : RunConfig Float) : Prop := ∀ n ∈ c.noise, ∀ x ∈ n.numbers, x.isFinite = true

instance : DecidablePred Finite := fun c =>
  inferInstanceAs (Decidable (∀ n ∈ c.noise, ∀ x ∈ n.numbers, x.isFinite = true))

theorem numbers_toJson (c : RunConfig Float) : Json.Numbers (c.toJson binary64).spellings := by
  have hnoise := Json.numbers_ofOption Noise.numbers_toJson c.noise
  have happrox := Json.numbers_ofOption ApproxConfig.numbers_toJson c.approx
  simp [toJson, Json.spellings, Json.spellingsOfMembers, hnoise, happrox]

theorem written_eq_of_draft (h : draft (c.toJson binary64) = draft (d.toJson binary64)) :
    c.written = d.written := by
  simp only [toJson, draft, Json.draftMembers, Json.Draft.object.injEq, List.cons.injEq,
    Prod.mk.injEq, Json.Draft.bool.injEq, true_and, and_true] at h
  obtain ⟨hframes, hposes, hnoise, happrox, htruth, htime⟩ := h
  have hnoise' : c.noise.map Noise.written = d.noise.map Noise.written :=
    Json.map_eq_of_draft (fun _ => Json.draft_object_ne_null _)
      (fun _ _ => Noise.written_eq_of_draft) hnoise
  have happrox' : c.approx.map id = d.approx.map id :=
    Json.map_eq_of_draft (fun _ => Json.draft_object_ne_null _)
      (fun _ _ => ApproxConfig.eq_of_draft) happrox
  simp only [Option.map_id, id_eq] at happrox'
  rw [written, written, hframes, hposes, hnoise', happrox', htruth, Json.int64_eq_of_draft htime]

theorem fingerprint_eq_iff :
    c.fingerprint binary64 = d.fingerprint binary64 ↔ c.written = d.written := by
  constructor
  · intro h
    exact written_eq_of_draft (Json.draft_eq_of_compact_eq c.numbers_toJson d.numbers_toJson h)
  · intro h
    obtain ⟨hframes, hposes, hnoise, happrox, htruth, htime⟩ := RunConfig.mk.inj h
    have hjson : Json.ofOption (Noise.toJson binary64) c.noise =
        Json.ofOption (Noise.toJson binary64) d.noise := by
      cases hc : c.noise <;> cases hd : d.noise <;> simp [hc, hd] at hnoise
      · rfl
      · exact Noise.toJson_congr hnoise
    simp only [fingerprint, toJson, hframes, hposes, hjson, happrox, htruth, htime]

theorem eq_of_written (h : c.Finite) (heq : c.written = d.written) : c = d := by
  obtain ⟨hframes, hposes, hnoise, happrox, htruth, htime⟩ := RunConfig.mk.inj heq
  have hnoise' : c.noise = d.noise := by
    cases hc : c.noise with
    | none =>
      rw [hc, Option.map_none] at hnoise
      exact (Option.map_eq_none_iff.1 hnoise.symm).symm
    | some n =>
      rw [hc, Option.map_some] at hnoise
      obtain ⟨k, hk, hwritten⟩ := Option.map_eq_some_iff.1 hnoise.symm
      rw [hk, Noise.eq_of_written (h n hc) hwritten.symm]
  cases c
  cases d
  rw [mk.injEq]
  exact ⟨hframes, hposes, hnoise', happrox, htruth, htime⟩

/-! ## Keys -/

section keys

variable {κ υ ε σ : Type} (hash : String → κ)

def keyed (compute : RunConfig Float → StateM σ υ)
    (tryCompute : RunConfig Float → StateM σ (Except ε υ)) : Memo.Wrapped (RunConfig Float) κ υ ε σ where
  key c := hash (c.fingerprint binary64)
  compute := compute
  tryKey c := .ok (hash (c.fingerprint binary64))
  tryCompute := tryCompute

theorem key_keyed (compute : RunConfig Float → StateM σ υ)
    (tryCompute : RunConfig Float → StateM σ (Except ε υ)) (lookup : Memo.Lookup (RunConfig Float)) :
    lookup.key (keyed hash compute tryCompute) = .ok (hash (lookup.arg.fingerprint binary64)) := by
  cases lookup <;> rfl

/-- Runs with one text in JSON, and so one run if the numbers of one of them are finite. -/
def Alike (c d : RunConfig Float) : Prop := c.written = d.written ∧ (d.Finite → c = d)

variable {hash} {used : Set (RunConfig Float)}

theorem alike_of_key_eq (h : Set.InjOn hash (fingerprint binary64 '' used)) (hc : c ∈ used)
    (hd : d ∈ used) (hkey : hash (c.fingerprint binary64) = hash (d.fingerprint binary64)) :
    Alike c d := by
  have hwritten := fingerprint_eq_iff.1 (h ⟨c, hc, rfl⟩ ⟨d, hd, rfl⟩ hkey)
  exact ⟨hwritten, fun hfinite => (eq_of_written hfinite hwritten.symm).symm⟩

/-- With a hash that does not confuse the fingerprints of the runs in use, two of them have one key
exactly if they differ at most in numbers that are not finite. So what a memo answers for a run with
finite numbers was computed for that run, in calls that follow each other and in calls that overlap. -/
theorem fingerprints_tell_apart [DecidableEq κ] (h : Set.InjOn hash (fingerprint binary64 '' used)) :
    (∀ c ∈ used, ∀ d ∈ used,
      (hash (c.fingerprint binary64) = hash (d.fingerprint binary64) ↔ c.written = d.written) ∧
      (d.Finite → (hash (c.fingerprint binary64) = hash (d.fingerprint binary64) ↔ c = d))) ∧
    (∀ (υ ε σ : Type) (compute : RunConfig Float → StateM σ υ)
      (tryCompute : RunConfig Float → StateM σ (Except ε υ)) (state : σ)
      (requests : List (Memo.Request (RunConfig Float))),
      (∀ lookup, .lookup lookup ∈ requests → lookup.arg ∈ used) →
      Memo.AnswersFrom Alike (keyed hash compute tryCompute)
        (Memo.visits (keyed hash compute tryCompute) ⟨Memo.empty, state⟩ requests)) ∧
    ∀ (ι υ ε : Type) [DecidableEq ι] (config : ι → RunConfig Float) (s : Memo.Overlap ι κ υ ε),
      (∀ i, config i ∈ used) →
      Memo.Overlap.Run (fun i => .ok (hash ((config i).fingerprint binary64))) Memo.Overlap.start s →
      Memo.Overlap.AnswersFrom (fun i => .ok (hash ((config i).fingerprint binary64)))
        (fun j i => Alike (config j) (config i)) s := by
  refine ⟨fun c hc d hd => ⟨⟨fun hkey => (alike_of_key_eq h hc hd hkey).1, fun hwritten => ?_⟩,
    fun hfinite => ⟨fun hkey => (alike_of_key_eq h hc hd hkey).2 hfinite, fun heq => ?_⟩⟩,
    fun υ ε σ compute tryCompute state requests hused => ?_, fun ι υ ε _ config s hused hrun => ?_⟩
  · rw [fingerprint_eq_iff.2 hwritten]
  · rw [heq]
  · refine Memo.answersFrom_visits hused fun lookup other key hlookup hother hkey hkey' => ?_
    rw [key_keyed] at hkey hkey'
    exact alike_of_key_eq h hother hlookup (Except.ok.inj (hkey'.trans hkey.symm))
  · refine hrun.answersFrom (fun i => ⟨_, rfl⟩) fun i j key hkey hkey' => ?_
    exact alike_of_key_eq h (hused j) (hused i) (Except.ok.inj (hkey'.trans hkey.symm))

end keys

def folded (text : String) : UInt64 :=
  .ofNat (text.toUTF8.data.toList.foldl (fun hash b => (31 * hash + b.toNat) % UInt64.size) 7)

def noisy (noise : Noise Float) : RunConfig Float := ⟨false, false, some noise, none, false, 5000000000⟩

def close : List (RunConfig Float) :=
  [default, noisy ⟨0.0, 0.0, 0.0, 0.0⟩, noisy ⟨-0.0, 0.0, 0.0, 0.0⟩,
    noisy ⟨5e-324, 0.0, 0.0, 0.0⟩, approximate .exact]

theorem fingerprints_tell_apart_close :
    Set.InjOn folded (fingerprint binary64 '' {c | c ∈ close}) ∧
      ∀ c ∈ close, ∀ d ∈ close,
        (folded (c.fingerprint binary64) = folded (d.fingerprint binary64) ↔ c = d) := by
  have hinj : Set.InjOn folded (fingerprint binary64 '' {c | c ∈ close}) := by
    have hnodup : (close.map fun c => folded (c.fingerprint binary64)).Nodup := by decide +kernel
    rintro _ ⟨c, hc, rfl⟩ _ ⟨d, hd, rfl⟩ hhash
    rw [List.inj_on_of_nodup_map hnodup hc hd hhash]
  have hfinite : ∀ d ∈ close, d.Finite := by decide +kernel
  exact ⟨hinj, fun c hc d hd => ((fingerprints_tell_apart hinj).1 c hc d hd).2 (hfinite d hd)⟩

def infinite (sign : Float) : RunConfig Float := noisy ⟨sign / 0.0, 0.0, 0.0, 0.0⟩

/-- Offsets that are infinite to different sides have one text, and a memo takes one run for the
other. -/
theorem fingerprints_confuse_infinite :
    infinite 1.0 ≠ infinite (-1.0) ∧
      (infinite 1.0).fingerprint binary64 = (infinite (-1.0)).fingerprint binary64 ∧
      (Memo.visits (keyed (ε := Empty) id (fun c => pure c) (fun c => pure (.ok c))) ⟨Memo.empty, ()⟩
        [.lookup (.call (infinite 1.0)), .lookup (.call (infinite (-1.0)))]).map Memo.Visit.reply =
        [.result (.ok (infinite 1.0)), .result (.ok (infinite 1.0))] := by
  exact ⟨by decide +kernel, by decide +kernel, by decide +kernel⟩

end RunConfig
end TrackingScore
