import Mathlib.Data.List.Forall2
import TrackingScore.Decimal.Layout
import TrackingScore.Proofs.DecimalRoundTrip
import TrackingScore.Table.Score

/-!
Written tables of samples read back. A table is taken apart at line ends and commas, and each row is
read by the names of the header. Numbers come back as they are spelled; what is no number comes back as
none, whichever it is.
-/

namespace TrackingScore

open Scalar

/-! ## Samples as read back -/

section same

variable {α : Type} [Scalar α]

/-- The same number, or both no number. -/
def SameNumber (x y : α) : Prop := x = y ∨ isNaN x = true ∧ isNaN y = true

theorem SameNumber.refl (x : α) : SameNumber x x := .inl rfl

theorem SameNumber.of_common {x y z : α} (hy : SameNumber x y) (hz : SameNumber x z) :
    SameNumber y z := by
  rcases hy with rfl | ⟨hx, hy⟩
  · exact hz
  · rcases hz with rfl | ⟨-, hz⟩
    · exact .inr ⟨hy, hx⟩
    · exact .inr ⟨hy, hz⟩

def ErrorSample.numbers (s : ErrorSample α) : List α := [s.positionError, s.orientationError]

structure ErrorSample.Same (s t : ErrorSample α) : Prop where
  timestamp : s.timestamp = t.timestamp
  positionError : SameNumber s.positionError t.positionError
  orientationError : SameNumber s.orientationError t.orientationError

theorem ErrorSample.Same.of_common {r s t : ErrorSample α} (hs : r.Same s) (ht : r.Same t) :
    s.Same t where
  timestamp := hs.timestamp.symm.trans ht.timestamp
  positionError := hs.positionError.of_common ht.positionError
  orientationError := hs.orientationError.of_common ht.orientationError

def FrameDistanceSample.numbers (s : FrameDistanceSample α) : List α :=
  [s.ssim, s.medianFeatureDistance, s.meanFeatureDistance, s.maxFeatureDistance]

structure FrameDistanceSample.Same (s t : FrameDistanceSample α) : Prop where
  timestamp : s.timestamp = t.timestamp
  referenceTimestamp : s.referenceTimestamp = t.referenceTimestamp
  ssim : SameNumber s.ssim t.ssim
  medianFeatureDistance : SameNumber s.medianFeatureDistance t.medianFeatureDistance
  meanFeatureDistance : SameNumber s.meanFeatureDistance t.meanFeatureDistance
  maxFeatureDistance : SameNumber s.maxFeatureDistance t.maxFeatureDistance

theorem FrameDistanceSample.Same.of_common {r s t : FrameDistanceSample α} (hs : r.Same s)
    (ht : r.Same t) : s.Same t where
  timestamp := hs.timestamp.symm.trans ht.timestamp
  referenceTimestamp := hs.referenceTimestamp.symm.trans ht.referenceTimestamp
  ssim := hs.ssim.of_common ht.ssim
  medianFeatureDistance := hs.medianFeatureDistance.of_common ht.medianFeatureDistance
  meanFeatureDistance := hs.meanFeatureDistance.of_common ht.meanFeatureDistance
  maxFeatureDistance := hs.maxFeatureDistance.of_common ht.maxFeatureDistance

end same

namespace Table

/-! ## Tables taken apart -/

/-- Rows of a text whose lines all end in a line feed, split at commas. -/
def splitTable? (text : String) : Option (List (List (List Char))) :=
  let pieces := text.toList.splitOn '\n'
  if pieces.getLast? = some [] then some (pieces.dropLast.map (·.splitOn ',')) else none

def under? (header row : List (List Char)) (name : String) : Option (List Char) :=
  (header.zip row).lookup name.toList

def readTable? {σ : Type} (ofFields : (String → Option (List Char)) → Option σ) (text : String) :
    Option (List σ) :=
  match splitTable? text with
  | some (header :: rows) => rows.mapM fun row => ofFields (under? header row)
  | some [] => some []
  | none => none

def Plain (text : String) : Prop := ∀ c ∈ text.toList, c ≠ ',' ∧ c ≠ '"' ∧ c ≠ '\n' ∧ c ≠ '\r'

instance : DecidablePred Plain := fun text => List.decidableBAll _ text.toList

theorem plain_toString (t : Int64) : Plain (toString t) := by
  intro c hc
  have hmem : c = '-' ∨ c ∈ Nat.toDigits 10 t.toInt.natAbs := by
    change c ∈ (toString t.toInt).toList at hc
    rw [Decimal.toList_toString_int] at hc
    split at hc
    · exact .inr hc
    · exact List.mem_cons.1 hc
  rcases hmem with rfl | hc
  · decide
  · have hdigit := Decimal.isDigit_of_mem_toDigits hc
    refine ⟨?_, ?_, ?_, ?_⟩ <;> rintro rfl <;> exact absurd hdigit (by decide)

def joined (fields : List String) : List Char := [','].intercalate (fields.map String.toList)

theorem toList_line (fields : List String) : (line fields).toList = joined fields ++ ['\n'] := by
  rw [line, String.toList_append, String.toList_intercalate]
  rfl

theorem splitOn_joined {fields : List String} (hne : fields ≠ [])
    (h : ∀ field ∈ fields, Plain field) : (joined fields).splitOn ',' = fields.map String.toList := by
  refine List.splitOn_intercalate ',' ?_ (by simpa using hne)
  intro piece hpiece hcomma
  obtain ⟨field, hfield, rfl⟩ := List.mem_map.1 hpiece
  exact (h field hfield ',' hcomma).1 rfl

theorem lineFeed_not_mem_joined {fields : List String} (h : ∀ field ∈ fields, Plain field) :
    '\n' ∉ joined fields := by
  refine Text.not_mem_intercalate (by decide) (List.forall_mem_map.2 fun field hfield hfeed => ?_)
  exact (h field hfield '\n' hfeed).2.2.1 rfl

theorem toList_join_lines (rows : List (List String)) :
    (String.join (rows.map line)).toList = ['\n'].intercalate (rows.map joined ++ [[]]) := by
  induction rows with
  | nil => rfl
  | cons row rows ih =>
    obtain ⟨piece, pieces, hpieces⟩ :=
      List.exists_cons_of_ne_nil (show rows.map joined ++ [[]] ≠ [] by simp)
    rw [List.map_cons, String.join_cons, String.toList_append, toList_line, ih, List.map_cons,
      List.cons_append, hpieces, List.intercalate_cons_cons]

theorem splitOn_lines {rows : List (List String)} (h : ∀ row ∈ rows, ∀ field ∈ row, Plain field) :
    (String.join (rows.map line)).toList.splitOn '\n' = rows.map joined ++ [[]] := by
  rw [toList_join_lines]
  refine List.splitOn_intercalate '\n' ?_ (by simp)
  intro piece hpiece
  rcases List.mem_append.1 hpiece with hpiece | hpiece
  · obtain ⟨row, hrow, rfl⟩ := List.mem_map.1 hpiece
    exact lineFeed_not_mem_joined (h row hrow)
  · rw [List.mem_singleton.1 hpiece]
    exact List.not_mem_nil

theorem splitTable?_withHeader {header : List String} {rows : List (List String)}
    (hne : ∀ row ∈ header :: rows, row ≠ [])
    (h : ∀ row ∈ header :: rows, ∀ field ∈ row, Plain field) (hrows : rows ≠ []) :
    splitTable? (withHeader header rows) = some ((header :: rows).map (List.map String.toList)) := by
  have hpieces : ((header :: rows).map joined).map (·.splitOn ',') =
      (header :: rows).map (List.map String.toList) := by
    rw [List.map_map]
    exact List.map_congr_left fun row hrow => splitOn_joined (hne row hrow) (h row hrow)
  rw [withHeader, if_neg (by simpa using hrows), splitTable?, splitOn_lines h]
  simp only [List.getLast?_concat, List.dropLast_concat, hpieces, if_true]

/-! ## Samples by the names of the header -/

variable {α σ : Type}

section readers

variable (number : List Char → Option α) (field : String → Option (List Char))

def errorSampleOf : Option (ErrorSample α) := do
  let timestamp ← Decimal.readInt64 (← field "timestamp")
  let positionError ← number (← field "position_error")
  let orientationError ← number (← field "orientation_error")
  return ⟨timestamp, positionError, orientationError⟩

def frameDistanceSampleOf : Option (FrameDistanceSample α) := do
  let timestamp ← Decimal.readInt64 (← field "timestamp")
  let referenceTimestamp ← Decimal.readInt64 (← field "matched_gt_timestamp")
  let ssim ← number (← field "ssim")
  let median ← number (← field "median_feature_distance")
  let mean ← number (← field "mean_feature_distance")
  let greatest ← number (← field "max_feature_distance")
  return ⟨timestamp, referenceTimestamp, ssim, median, mean, greatest⟩

end readers

variable [Scalar α]

/-- The text of a number stands for itself in a table and is read as that number. -/
structure ReadsBack (spell : α → String) (number : List Char → Option α) (x : α) : Prop where
  plain : Plain (spell x)
  reads : ∃ y, number (spell x).toList = some y ∧ SameNumber y x

section rows

variable {spell : α → String} {number : List Char → Option α}

theorem errorSampleOf_errorRow {s : ErrorSample α} (h : ∀ x ∈ s.numbers, ReadsBack spell number x) :
    ∃ t, errorSampleOf number
        (under? (errorHeader.map String.toList) ((errorRow spell s).map String.toList)) = some t ∧
      t.Same s := by
  simp only [ErrorSample.numbers, List.forall_mem_cons] at h
  obtain ⟨⟨-, p, hp, hpsame⟩, ⟨-, o, ho, hosame⟩, -⟩ := h
  refine ⟨⟨s.timestamp, p, o⟩, ?_, rfl, hpsame, hosame⟩
  simp [errorSampleOf, under?, errorHeader, errorRow, List.lookup_cons, Decimal.readInt64_toString, hp, ho]

theorem plain_errorRow {s : ErrorSample α} (h : ∀ x ∈ s.numbers, ReadsBack spell number x) :
    ∀ field ∈ errorRow spell s, Plain field := by
  simp only [ErrorSample.numbers, List.forall_mem_cons] at h
  obtain ⟨hposition, horientation, -⟩ := h
  simp only [errorRow, List.forall_mem_cons]
  exact ⟨plain_toString _, hposition.plain, horientation.plain, by simp⟩

theorem frameDistanceSampleOf_frameDistanceRow {s : FrameDistanceSample α}
    (h : ∀ x ∈ s.numbers, ReadsBack spell number x) :
    ∃ t, frameDistanceSampleOf number (under? (frameDistanceHeader.map String.toList)
        ((frameDistanceRow spell s).map String.toList)) = some t ∧ t.Same s := by
  simp only [FrameDistanceSample.numbers, List.forall_mem_cons] at h
  obtain ⟨⟨-, i, hi, hisame⟩, ⟨-, m, hm, hmsame⟩, ⟨-, a, ha, hasame⟩, ⟨-, g, hg, hgsame⟩, -⟩ := h
  refine ⟨⟨s.timestamp, s.referenceTimestamp, i, m, a, g⟩, ?_, rfl, rfl, hisame, hmsame, hasame,
    hgsame⟩
  simp [frameDistanceSampleOf, under?, frameDistanceHeader, frameDistanceRow, List.lookup_cons,
    Decimal.readInt64_toString, hi, hm, ha, hg]

theorem plain_frameDistanceRow {s : FrameDistanceSample α}
    (h : ∀ x ∈ s.numbers, ReadsBack spell number x) :
    ∀ field ∈ frameDistanceRow spell s, Plain field := by
  simp only [FrameDistanceSample.numbers, List.forall_mem_cons] at h
  obtain ⟨hssim, hmedian, hmean, hgreatest, -⟩ := h
  simp only [frameDistanceRow, List.forall_mem_cons]
  exact ⟨plain_toString _, plain_toString _, hssim.plain, hmedian.plain, hmean.plain,
    hgreatest.plain, by simp⟩

end rows

/-! ## Whole tables -/

omit [Scalar α] in
theorem exists_mapM_forall₂ {ρ : Type} {f : ρ → Option σ} {row : σ → ρ} {same : σ → σ → Prop}
    {samples : List σ} (h : ∀ s ∈ samples, ∃ t, f (row s) = some t ∧ same t s) :
    ∃ found, (samples.map row).mapM f = some found ∧ List.Forall₂ same found samples := by
  induction samples with
  | nil => exact ⟨[], rfl, .nil⟩
  | cons s samples ih =>
    obtain ⟨t, ht, hts⟩ := h s List.mem_cons_self
    obtain ⟨found, hfound, hsame⟩ := ih fun s hs => h s (List.mem_cons_of_mem _ hs)
    refine ⟨t :: found, ?_, .cons hts hsame⟩
    rw [List.map_cons, List.mapM_cons, ht, hfound]
    rfl

omit [Scalar α] in
theorem forall₂_of_common {same : σ → σ → Prop}
    (hcommon : ∀ r s t, same r s → same r t → same s t) {found samples others : List σ}
    (hsamples : List.Forall₂ same found samples) (hothers : List.Forall₂ same found others) :
    List.Forall₂ same samples others := by
  induction hsamples generalizing others with
  | nil =>
    cases hothers
    exact .nil
  | cons hs _ ih =>
    cases hothers with
    | cons ht hothers => exact .cons (hcommon _ _ _ hs ht) (ih hothers)

/-- A written table loses nothing of the samples that can be read: it is the header and one line a
sample in order, its rows are read back by the names of the header, and so samples that are told
apart have texts that are told apart. -/
structure Lossless (table : List σ → String) (header : List String) (row : σ → List String)
    (read : String → Option (List σ)) (same : σ → σ → Prop) (readable : σ → Prop) : Prop where
  empty : table [] = ""
  lines : ∀ samples ≠ [], (∀ s ∈ samples, readable s) →
    splitTable? (table samples) = some ((header :: samples.map row).map (List.map String.toList))
  readBack : ∀ samples, (∀ s ∈ samples, readable s) →
    ∃ found, read (table samples) = some found ∧ List.Forall₂ same found samples
  apart : ∀ samples others, (∀ s ∈ samples, readable s) → (∀ s ∈ others, readable s) →
    table samples = table others → List.Forall₂ same samples others

omit [Scalar α] in
theorem lossless_withHeader {header : List String} {row : σ → List String}
    {ofFields : (String → Option (List Char)) → Option σ} {same : σ → σ → Prop}
    {readable : σ → Prop} (hheader : header ≠ []) (hplain : ∀ field ∈ header, Plain field)
    (hrow : ∀ s, row s ≠ []) (hfields : ∀ s, readable s → ∀ field ∈ row s, Plain field)
    (hread : ∀ s, readable s → ∃ t, ofFields (under? (header.map String.toList)
      ((row s).map String.toList)) = some t ∧ same t s)
    (hcommon : ∀ r s t, same r s → same r t → same s t) :
    Lossless (fun samples => withHeader header (samples.map row)) header row (readTable? ofFields)
      same readable := by
  have hlines : ∀ samples ≠ [], (∀ s ∈ samples, readable s) →
      splitTable? (withHeader header (samples.map row)) =
        some ((header :: samples.map row).map (List.map String.toList)) := by
    intro samples hne hreadable
    refine splitTable?_withHeader ?_ ?_ (by simpa using hne)
    · simpa using ⟨hheader, fun s _ => hrow s⟩
    · simp only [List.forall_mem_cons, List.forall_mem_map]
      exact ⟨hplain, fun s hs => hfields s (hreadable s hs)⟩
  have hback : ∀ samples, (∀ s ∈ samples, readable s) →
      ∃ found, readTable? ofFields (withHeader header (samples.map row)) = some found ∧
        List.Forall₂ same found samples := by
    intro samples hreadable
    by_cases hne : samples = []
    · subst hne
      exact ⟨[], rfl, .nil⟩
    · rw [readTable?, hlines samples hne hreadable, List.map_cons]
      simp only [List.map_map]
      exact exists_mapM_forall₂ fun s hs => hread s (hreadable s hs)
  refine ⟨rfl, hlines, hback, fun samples others hsamples hothers htext => ?_⟩
  obtain ⟨found, hfound, hsame⟩ := hback samples hsamples
  obtain ⟨found', hfound', hsame'⟩ := hback others hothers
  obtain rfl : found = found' := by
    rw [htext, hfound'] at hfound
    exact (Option.some.inj hfound).symm
  exact forall₂_of_common hcommon hsame hsame'

/-- Both tables lose nothing, however many samples there are, if the numbers in use are spelled
without commas, quotes and line ends and are read back. -/
theorem tables_lossless {spell : α → String} {number : List Char → Option α} {used : α → Prop}
    (h : ∀ x, used x → ReadsBack spell number x) :
    Lossless (errorTable spell) ["timestamp", "position_error", "orientation_error"]
        (errorRow spell) (readTable? (errorSampleOf number)) ErrorSample.Same
        (fun s => ∀ x ∈ s.numbers, used x) ∧
      Lossless (frameDistanceTable spell)
        ["timestamp", "matched_gt_timestamp", "ssim", "median_feature_distance",
          "mean_feature_distance", "max_feature_distance"]
        (frameDistanceRow spell) (readTable? (frameDistanceSampleOf number)) FrameDistanceSample.Same
        (fun s => ∀ x ∈ s.numbers, used x) :=
  ⟨lossless_withHeader (by decide) (by decide) (by simp [errorRow])
      (fun _ hs => plain_errorRow fun x hx => h x (hs x hx))
      (fun _ hs => errorSampleOf_errorRow fun x hx => h x (hs x hx)) fun _ _ _ => .of_common,
    lossless_withHeader (by decide) (by decide) (by simp [frameDistanceRow])
      (fun _ hs => plain_frameDistanceRow fun x hx => h x (hs x hx))
      (fun _ hs => frameDistanceSampleOf_frameDistanceRow fun x hx => h x (hs x hx)) fun _ _ _ => .of_common⟩

def awkward : List Float := [-0.0, 5e-324, 0.1, 1.0 / 0.0, 0.0 / 0.0]

theorem awkward_readsBack :
    ∀ x ∈ awkward, ReadsBack Decimal.tabular.text Decimal.readFloat x := by
  have hread : ∀ x ∈ awkward, Plain (Decimal.tabular.text x) ∧
      Decimal.readFloat (Decimal.tabular.text x).toList = some x := by decide +kernel
  exact fun x hx => ⟨(hread x hx).1, x, (hread x hx).2, .refl x⟩

def extremeErrors : List (ErrorSample Float) :=
  [⟨.minValue, -0.0, 0.0 / 0.0⟩, ⟨.maxValue, 1.0 / 0.0, 5e-324⟩, ⟨.minValue, -0.0, 0.0 / 0.0⟩]

def extremeDistances : List (FrameDistanceSample Float) :=
  [⟨.maxValue, .minValue, 0.1, 0.0 / 0.0, -0.0, 1.0 / 0.0⟩]

theorem tables_lossless_awkward :
    (∀ x ∈ awkward, ReadsBack Decimal.tabular.text Decimal.readFloat x) ∧
      (∃ found, readTable? (errorSampleOf Decimal.readFloat)
          (errorTable Decimal.tabular.text extremeErrors) = some found ∧
        List.Forall₂ ErrorSample.Same found extremeErrors) ∧
      ∃ found, readTable? (frameDistanceSampleOf Decimal.readFloat)
          (frameDistanceTable Decimal.tabular.text extremeDistances) = some found ∧
        List.Forall₂ FrameDistanceSample.Same found extremeDistances :=
  ⟨awkward_readsBack, (tables_lossless awkward_readsBack).1.readBack _
      (by simp [extremeErrors, ErrorSample.numbers, awkward]),
    (tables_lossless awkward_readsBack).2.readBack _
      (by simp [extremeDistances, FrameDistanceSample.numbers, awkward])⟩

end Table
end TrackingScore
