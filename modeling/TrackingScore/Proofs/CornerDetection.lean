import Mathlib.Data.List.Basic
import Mathlib.Data.Nat.Dist
import TrackingScore.Image.Harris
import TrackingScore.Proofs.Binary32

/-!
Detection of corners. What is found are the places inside the border that are above the threshold
and beaten by no place of their window, the strongest first. Of two places in one window the later
one of equals is beaten, so the places found keep their distance also on plateaus.
-/

namespace TrackingScore

open Scalar

section ties

variable {β : Type} {le : β → β → Bool} {R : β → β → Prop} {l : List β}

theorem pairwise_mergeSort_ties (trans : ∀ a b c, le a b = true → le b c = true → le a c = true)
    (total : ∀ a b, (le a b || le b a) = true) (h : l.Pairwise R) :
    (l.mergeSort le).Pairwise fun a b => le b a = true → R a b := by
  induction l with
  | nil => simp
  | cons a l ih =>
    rw [List.pairwise_cons] at h
    obtain ⟨before, after, hcons, hl, hbefore⟩ := List.mergeSort_cons trans total a l
    have hrest := ih h.2
    rw [hl, List.pairwise_append] at hrest
    rw [hcons, List.pairwise_append, List.pairwise_cons]
    have hmem : ∀ b ∈ after, b ∈ l := fun b hb =>
      List.mem_mergeSort.1 (hl ▸ List.mem_append_right before hb)
    refine ⟨hrest.1, ⟨fun b hb _ => h.1 b (hmem b hb), hrest.2.1⟩, fun b hb c hc hcb => ?_⟩
    rcases List.mem_cons.1 hc with rfl | hc
    · have hnot := hbefore b hb
      rw [hcb] at hnot
      exact absurd hnot Bool.false_ne_true
    · exact hrest.2.2 b hb c hc hcb

end ties

namespace Spot

variable {β : Type} {h w margin m n : Nat}

def RasterBefore (s : Spot h w m) (t : Spot h w n) : Prop :=
  s.row < t.row ∨ s.row = t.row ∧ s.col < t.col

/-- The greater one of the distances of the rows and of the columns. -/
def chebyshev (s : Spot h w m) (t : Spot h w n) : Nat :=
  max (Nat.dist s.row t.row) (Nat.dist s.col t.col)

theorem row_lt_height (s : Spot h w m) : s.row < h :=
  (Nat.le_add_right _ _).trans_lt s.row_lt

theorem col_lt_width (s : Spot h w m) : s.col < w :=
  (Nat.le_add_right _ _).trans_lt s.col_lt

def read (s : Spot h w m) (grid : Grid β h w) : β :=
  have := s.row_lt_height
  have := s.col_lt_width
  grid[s.row][s.col]

def place (s : Spot h w m) : Spot h w 0 :=
  ⟨s.row, s.col, Nat.zero_le _, s.row_lt_height, Nat.zero_le _, s.col_lt_width⟩

theorem chebyshev_comm (s : Spot h w m) (t : Spot h w n) : s.chebyshev t = t.chebyshev s := by
  rw [chebyshev, chebyshev, Nat.dist_comm, Nat.dist_comm s.col]

theorem read_mem_toCells (s : Spot h w m) (grid : Grid β h w) : s.read grid ∈ grid.toCells := by
  have hrow := s.row_lt_height
  rw [Grid.toCells, List.mem_flatMap]
  exact ⟨grid[s.row], Vector.mem_toList_iff.2 (Vector.getElem_mem hrow),
    Vector.mem_toList_iff.2 (Vector.getElem_mem s.col_lt_width)⟩

end Spot

section spots

variable {h w margin : Nat}

theorem mem_spots (s : Spot h w margin) : s ∈ spots h w margin := by
  simp only [spots, List.mem_flatMap, List.mem_filterMap]
  refine ⟨⟨s.row, s.row_lt_height⟩, List.mem_finRange _, ⟨s.col, s.col_lt_width⟩,
    List.mem_finRange _, ?_⟩
  exact dif_pos ⟨⟨s.row_ge, s.row_lt⟩, s.col_ge, s.col_lt⟩

theorem pairwise_spots : (spots h w margin).Pairwise Spot.RasterBefore := by
  have hplace {r : Fin h} {c : Fin w} {s : Spot h w margin}
      (hs : (if hs : (margin ≤ r.val ∧ r.val + margin < h) ∧ margin ≤ c.val ∧ c.val + margin < w
        then some (Spot.mk r.val c.val hs.1.1 hs.1.2 hs.2.1 hs.2.2) else none) = some s) :
      s.row = r ∧ s.col = c := by
    obtain ⟨_, hs⟩ := Option.dite_none_right_eq_some.1 hs
    cases hs
    exact ⟨rfl, rfl⟩
  rw [spots, List.pairwise_flatMap]
  constructor
  · intro r _
    refine (List.pairwise_lt_finRange w).filterMap _ fun c d hcd s hs t ht => ?_
    obtain ⟨hsr, hsc⟩ := hplace hs
    obtain ⟨htr, htc⟩ := hplace ht
    exact .inr ⟨hsr.trans htr.symm, by rwa [hsc, htc]⟩
  · refine (List.pairwise_lt_finRange h).imp fun {r q} hrq s hs t ht => ?_
    obtain ⟨_, _, hs⟩ := List.mem_filterMap.1 hs
    obtain ⟨_, _, ht⟩ := List.mem_filterMap.1 ht
    exact .inl (by rwa [(hplace hs).1, (hplace ht).1])

end spots

section strongest

variable {ρ : Type} [Scalar ρ] [LawfulScalar ρ]

structure UpperBound (xs : List ρ) (low top : ρ) : Prop where
  low_le : atMost low top = true
  le : ∀ x ∈ xs, isNaN x = false → atMost x top = true

theorem upperBound_foldl {low : ρ} (hlow : isNaN low = false) (xs : List ρ) :
    UpperBound xs low (xs.foldl (fun best x => if less best x then x else best) low) := by
  induction xs generalizing low with
  | nil => exact ⟨LawfulScalar.atMost_self hlow, fun x hx => absurd hx List.not_mem_nil⟩
  | cons x xs ih =>
    rw [List.foldl_cons]
    cases hx : less low x with
    | true =>
      have hle := LawfulScalar.atMost_of_less hx
      obtain ⟨hlow_le, hxs⟩ := ih (LawfulScalar.not_isNaN_of_atMost hle).2
      exact ⟨LawfulScalar.atMost_trans hle hlow_le,
        List.forall_mem_cons.2 ⟨fun _ => hlow_le, hxs⟩⟩
    | false =>
      obtain ⟨hlow_le, hxs⟩ := ih hlow
      refine ⟨hlow_le, List.forall_mem_cons.2 ⟨fun hnan => ?_, hxs⟩⟩
      exact LawfulScalar.atMost_trans (LawfulScalar.atMost_of_not_less hlow hnan hx) hlow_le

end strongest

namespace HarrisExtractor

theorem patchRadius_le_border {ρ : Type} (e : HarrisExtractor ρ) : e.patchRadius ≤ e.border :=
  Nat.le_max_left _ _

variable {ρ : Type} [Scalar ρ] {h w margin radius : Nat} {e : HarrisExtractor ρ}
  {response : Grid ρ h w} {level : ρ}

theorem mem_around {center radius limit i : Nat} :
    i ∈ around center radius limit ↔ Nat.dist center i ≤ radius ∧ i < limit := by
  rw [around, List.mem_range'_1, Nat.dist]
  omega

/-- Above a level, beaten by nothing in the window around, and the first of the equals there. -/
structure Eligible (radius : Nat) (response : Grid ρ h w) (level : ρ) (s : Spot h w margin) :
    Prop where
  above : less level (s.read response) = true
  unbeaten : ∀ t : Spot h w 0, s.chebyshev t ≤ radius →
    less (s.read response) (t.read response) = false
  first : ∀ t : Spot h w 0, s.chebyshev t ≤ radius → t.RasterBefore s →
    same (t.read response) (s.read response) = false

theorem beats_eq_false_iff {m n : Nat} {value other : ρ} {s : Spot h w m} {t : Spot h w n} :
    beats other t.row t.col value s.row s.col = false ↔
      less value other = false ∧ (t.RasterBefore s → same other value = false) := by
  rw [beats, Bool.or_eq_false_iff, Bool.and_eq_false_iff, Spot.RasterBefore]
  cases same other value <;> simp

theorem isLocalMax_iff {s : Spot h w margin} :
    e.isLocalMax response s.row s.col (s.read response) = true ↔
      ∀ t : Spot h w 0, s.chebyshev t ≤ e.nmsRadius →
        less (s.read response) (t.read response) = false ∧
          (t.RasterBefore s → same (t.read response) (s.read response) = false) := by
  simp only [isLocalMax, List.all_eq_true, mem_around, ← beats_eq_false_iff, Spot.chebyshev,
    max_le_iff]
  constructor
  · rintro hall t ⟨hrow, hcol⟩
    have := hall t.row ⟨hrow, t.row_lt_height⟩ t.col ⟨hcol, t.col_lt_width⟩
    simpa [Spot.read, t.row_lt_height, t.col_lt_width] using this
  · rintro hall r ⟨hrow, hr⟩ c ⟨hcol, hc⟩
    simpa [Spot.read, hr, hc] using
      hall ⟨r, c, Nat.zero_le r, hr, Nat.zero_le c, hc⟩ ⟨hrow, hcol⟩

theorem eligible_iff {s : Spot h w margin} :
    Eligible e.nmsRadius response level s ↔ less level (s.read response) = true ∧
      e.isLocalMax response s.row s.col (s.read response) = true := by
  rw [isLocalMax_iff]
  constructor
  · intro hs
    exact ⟨hs.above, fun t ht => ⟨hs.unbeaten t ht, hs.first t ht⟩⟩
  · rintro ⟨habove, hall⟩
    exact ⟨habove, fun t ht => (hall t ht).1, fun t ht => (hall t ht).2⟩

instance (s : Spot h w margin) : Decidable (Eligible e.nmsRadius response level s) :=
  decidable_of_iff _ eligible_iff.symm

def candidateAt (response : Grid ρ h w) (s : Spot h w margin) : Candidate ρ h w margin :=
  ⟨s, s.read response⟩

def eligibleSpots (e : HarrisExtractor ρ) (response : Grid ρ h w) (level : ρ) :
    List (Spot h w e.border) :=
  (spots h w e.border).filter fun s => decide (Eligible e.nmsRadius response level s)

theorem mem_eligibleSpots {s : Spot h w e.border} :
    s ∈ e.eligibleSpots response level ↔ Eligible e.nmsRadius response level s := by
  rw [eligibleSpots, List.mem_filter, decide_eq_true_iff]
  exact and_iff_right (mem_spots s)

theorem pairwise_eligibleSpots : (e.eligibleSpots response level).Pairwise Spot.RasterBefore :=
  pairwise_spots.filter _

theorem candidates_eq : e.candidates response level =
    (e.eligibleSpots response level).map (candidateAt response) := by
  rw [candidates, eligibleSpots, ← List.filterMap_eq_map, List.filterMap_filter]
  refine congrArg (List.filterMap · _) (funext fun s => ?_)
  simp only [eligible_iff, ← Bool.and_eq_true, decide_eq_true_eq]
  rfl

def threshold (e : HarrisExtractor ρ) (response : Grid ρ h w) : ρ :=
  strongest response * e.relativeThreshold

def strongerFirst (response : Grid ρ h w) (s t : Spot h w margin) : Bool :=
  sortsBefore (t.read response) (s.read response)

def found (e : HarrisExtractor ρ) (response : Grid ρ h w) : List (Spot h w e.border) :=
  (e.eligibleSpots response (e.threshold response)).mergeSort (strongerFirst response)

theorem keep_candidates : e.keep (e.candidates response (e.threshold response)) =
    ((e.found response).take e.maxFeatures).map (candidateAt response) := by
  rw [keep, candidates_eq, found, List.map_take]
  refine congrArg _ (List.map_mergeSort (f := candidateAt response) ?_).symm
  exact fun _ _ _ _ => rfl

theorem mem_found {s : Spot h w e.border} :
    s ∈ e.found response ↔ Eligible e.nmsRadius response (e.threshold response) s := by
  rw [found, List.mem_mergeSort, mem_eligibleSpots]

theorem empty_eq_featuresOf {luma : Grid ρ h w} (h : ∀ s : Spot h w e.border,
      ¬Eligible e.nmsRadius response (e.threshold response) s) :
    ⟨[], .empty e.descriptorSize⟩ =
      e.featuresOf luma (e.keep (e.candidates response (e.threshold response))) := by
  have hfound := List.eq_nil_iff_forall_not_mem.2 fun s hs => h s (mem_found.1 hs)
  rw [keep_candidates, hfound, List.take_nil]
  rfl

variable [LawfulScalar ρ]

theorem Eligible.not_isNaN {s : Spot h w margin} (hs : Eligible radius response level s) :
    isNaN (s.read response) = false :=
  (LawfulScalar.not_isNaN_of_atMost (LawfulScalar.atMost_of_less hs.above)).2

/-- Of two eligible places in one window neither is greater, so the later one is the second of two
equals. -/
theorem Eligible.lt_chebyshev {s t : Spot h w margin}
    (hs : Eligible radius response level s) (ht : Eligible radius response level t)
    (hst : s.RasterBefore t) : radius < s.chebyshev t := by
  by_contra hnear
  have hst_near : s.chebyshev t ≤ radius := Nat.le_of_not_lt hnear
  have hts_near : t.chebyshev s ≤ radius := s.chebyshev_comm t ▸ hst_near
  have hsame := LawfulScalar.same_of_not_less hs.not_isNaN ht.not_isNaN
    (hs.unbeaten t.place hst_near) (ht.unbeaten s.place hts_near)
  have hfirst : same (s.read response) (t.read response) = false := ht.first s.place hts_near hst
  rw [hsame] at hfirst
  exact Bool.false_ne_true hfirst.symm

theorem not_above_of_strongest {k : ρ} {s : Spot h w margin}
    (htop : atMost (strongest response) 0.0 = true) :
    less (strongest response * k) (s.read response) = false := by
  rw [Bool.eq_false_iff]
  intro habove
  have hbound := upperBound_foldl LawfulScalar.not_isNaN_zero response.toCells
  have hzero := LawfulScalar.same_iff.2 ⟨htop, hbound.low_le⟩
  have hless := LawfulScalar.less_zero_of_mul_less hzero habove
  have hle := hbound.le _ (s.read_mem_toCells response)
    (LawfulScalar.not_isNaN_of_atMost (LawfulScalar.atMost_of_less hless)).2
  have hself := LawfulScalar.less_of_less_of_atMost hless (LawfulScalar.atMost_trans hle htop)
  rw [LawfulScalar.not_less_self] at hself
  exact Bool.false_ne_true hself

theorem strongerFirst_trans (response : Grid ρ h w) (s t u : Spot h w margin)
    (hst : strongerFirst response s t = true) (htu : strongerFirst response t u = true) :
    strongerFirst response s u = true :=
  LawfulScalar.sortsBefore_trans _ _ _ htu hst

theorem strongerFirst_total (response : Grid ρ h w) (s t : Spot h w margin) :
    (strongerFirst response s t || strongerFirst response t s) = true :=
  LawfulScalar.sortsBefore_total _ _

theorem pairwise_ordered : (e.found response).Pairwise fun s t =>
    less (t.read response) (s.read response) = true ∨
      same (t.read response) (s.read response) = true ∧ s.RasterBefore t := by
  have hsorted := List.pairwise_mergeSort (strongerFirst_trans response)
    (strongerFirst_total response) (e.eligibleSpots response (e.threshold response))
  have hraster : (e.eligibleSpots response (e.threshold response)).Pairwise Spot.RasterBefore :=
    pairwise_eligibleSpots
  have hties := pairwise_mergeSort_ties (strongerFirst_trans response)
    (strongerFirst_total response) hraster
  refine (hsorted.and hties).imp_of_mem fun {s t} hs ht ⟨hst, hties⟩ => ?_
  have hsnan := (mem_found.1 hs).not_isNaN
  have htnan := (mem_found.1 ht).not_isNaN
  simp only [strongerFirst, sortsBefore, hsnan, htnan, Bool.false_or] at hst hties
  cases hback : atMost (s.read response) (t.read response) with
  | true => exact .inr ⟨LawfulScalar.same_iff.2 ⟨hst, hback⟩, hties hback⟩
  | false => exact .inl (LawfulScalar.less_of_not_atMost hsnan htnan hback)

theorem pairwise_separated :
    (e.found response).Pairwise fun s t => e.nmsRadius < s.chebyshev t := by
  have hsymm {s t : Spot h w e.border} (hst : e.nmsRadius < s.chebyshev t) :
      e.nmsRadius < t.chebyshev s := s.chebyshev_comm t ▸ hst
  rw [found, (List.mergeSort_perm _ _).pairwise_iff hsymm]
  exact pairwise_eligibleSpots.imp_of_mem fun hs ht =>
    (mem_eligibleSpots.1 hs).lt_chebyshev (mem_eligibleSpots.1 ht)

theorem features_eq (e : HarrisExtractor ρ) (luma : Raster ρ) :
    e.features luma = e.featuresOf luma.cells
      (((e.found (e.response luma.cells)).take e.maxFeatures).map
        (candidateAt (e.response luma.cells))) := by
  rw [← keep_candidates, features]
  split
  case isTrue hsmall =>
    refine empty_eq_featuresOf fun s _ => ?_
    have := s.row_ge; have := s.row_lt; have := s.col_ge; have := s.col_lt
    simp only [Bool.or_eq_true, decide_eq_true_eq] at hsmall
    omega
  case isFalse =>
    simp only
    split
    case isTrue htop =>
      refine empty_eq_featuresOf fun s hs => ?_
      have habove := hs.above
      rw [threshold, not_above_of_strongest htop] at habove
      exact Bool.false_ne_true habove
    case isFalse => rfl

def limitedTo (e : HarrisExtractor ρ) (limit : Nat) : HarrisExtractor ρ :=
  { e with maxFeatures := limit }

def keypointAt (response : Grid ρ h w) (s : Spot h w margin) : Keypoint ρ :=
  ⟨s.row, s.col, s.read response⟩

def descriptorAt (e : HarrisExtractor ρ) (luma : Grid ρ h w) (s : Spot h w e.border) : List ρ :=
  normalizePatch w (patchAt luma s e.patchRadius e.patchRadius_le_border)

/-- Places of an image, in the order in which they are reported. -/
structure Detection (e : HarrisExtractor ρ) (luma : Raster ρ)
    (found : List (Spot luma.height luma.width e.border)) : Prop where
  mem_iff : ∀ s, s ∈ found ↔
    Eligible e.nmsRadius (e.response luma.cells) (e.threshold (e.response luma.cells)) s
  ordered : found.Pairwise fun s t =>
    less (t.read (e.response luma.cells)) (s.read (e.response luma.cells)) = true ∨
      same (t.read (e.response luma.cells)) (s.read (e.response luma.cells)) = true ∧
        s.RasterBefore t
  separated : found.Pairwise fun s t => e.nmsRadius < s.chebyshev t

/-- Keypoints that keep the margin from every edge, and what describes each of them in its place. -/
structure Reports (e : HarrisExtractor ρ) (luma : Raster ρ)
    (found : List (Spot luma.height luma.width e.border)) (features : Features ρ) : Prop where
  keypoints_eq : features.keypoints = found.map (keypointAt (e.response luma.cells))
  size_eq : features.descriptors.size = e.descriptorSize
  rows_eq : features.descriptors.rows = found.map (e.descriptorAt luma.cells)
  margin_row : ∀ k ∈ features.keypoints,
    max e.patchRadius 2 ≤ k.row ∧ k.row + max e.patchRadius 2 < luma.height
  margin_col : ∀ k ∈ features.keypoints,
    max e.patchRadius 2 ≤ k.col ∧ k.col + max e.patchRadius 2 < luma.width

theorem reports_features (e : HarrisExtractor ρ) (luma : Raster ρ) (limit : Nat) :
    e.Reports luma ((e.found (e.response luma.cells)).take limit)
      ((e.limitedTo limit).features luma) := by
  have hkeypoints : ((e.limitedTo limit).features luma).keypoints =
      ((e.found (e.response luma.cells)).take limit).map (keypointAt (e.response luma.cells)) := by
    simp only [features_eq, featuresOf, List.map_map]
    rfl
  have hrows : ((e.limitedTo limit).features luma).descriptors.rows =
      ((e.found (e.response luma.cells)).take limit).map (e.descriptorAt luma.cells) := by
    simp only [features_eq, featuresOf, List.map_map]
    rfl
  refine ⟨hkeypoints, by rw [features_eq]; rfl, hrows, ?_, ?_⟩
  · rw [hkeypoints, List.forall_mem_map]
    exact fun s _ => ⟨s.row_ge, s.row_lt⟩
  · rw [hkeypoints, List.forall_mem_map]
    exact fun s _ => ⟨s.col_ge, s.col_lt⟩

/-- Detection looks at cells of the image only, and has an outcome unless descriptors are too long for
an array. The eligible places are in one order, apart from one another, and however many are asked for,
the first so many of them are reported. -/
theorem run_reports {α : Type} (e : HarrisExtractor ρ) (luma : Raster ρ) :
    (∀ center size : Nat, ∀ i ∈ around center e.nmsRadius size, i < size) ∧
      ∃ found : List (Spot luma.height luma.width e.border), e.Detection luma found ∧
        ∃ features : Nat → Features ρ,
          (∀ limit, (e.limitedTo limit).detect? α luma =
              (if e.Addressable then some (.ok (features limit)) else none) ∧
            e.Reports luma (found.take limit) (features limit)) ∧
          ∀ limit larger, limit ≤ larger →
            (features limit).keypoints = (features larger).keypoints.take limit ∧
              (features limit).descriptors.rows =
                (features larger).descriptors.rows.take limit := by
  refine ⟨fun center size i hi => (mem_around.1 hi).2, e.found (e.response luma.cells),
    ⟨fun s => mem_found, pairwise_ordered, pairwise_separated⟩,
    fun limit => (e.limitedTo limit).features luma,
    fun limit => ⟨detect?_eq _ luma, e.reports_features luma limit⟩, fun limit larger hle => ?_⟩
  have hsmall := e.reports_features luma limit
  have hlarge := e.reports_features luma larger
  rw [hsmall.keypoints_eq, hsmall.rows_eq, hlarge.keypoints_eq, hlarge.rows_eq, ← List.map_take,
    ← List.map_take, List.take_take, Nat.min_eq_left hle]
  exact ⟨rfl, rfl⟩

def bar : Raster Float32 :=
  .ofFn 5 6 fun r c => if 2 ≤ r.val ∧ 2 ≤ c.val ∧ c.val ≤ 3 then 1.0 else 0.0

def barCorners : HarrisExtractor Float32 := ⟨500, 0.0625, 0.5, 1, 1⟩

theorem run_reports_bar : ∃ found, barCorners.Detection bar found ∧
    (∃ features, (barCorners.limitedTo 1).detect? Float bar = some (.ok features) ∧
      barCorners.Reports bar (found.take 1) features) ∧
    (∃ s ∈ found, s.row = 2 ∧ s.col = 2) ∧ ∀ s ∈ found, s.col = 2 := by
  obtain ⟨_, found, hfound, features, hrun, _⟩ := run_reports (α := Float) barCorners bar
  have heligible : ∀ s ∈ spots bar.height bar.width barCorners.border,
      Eligible barCorners.nmsRadius (barCorners.response bar.cells)
        (barCorners.threshold (barCorners.response bar.cells)) s ↔ s.col = 2 := by
    decide +kernel
  refine ⟨found, hfound, ⟨features 1, hrun 1⟩, ?_, ?_⟩
  · let s : Spot 5 6 2 := ⟨2, 2, by decide, by decide, by decide, by decide⟩
    exact ⟨s, (hfound.mem_iff s).2 ((heligible s (mem_spots s)).2 rfl), rfl, rfl⟩
  · exact fun s hs => (heligible s (mem_spots s)).1 ((hfound.mem_iff s).1 hs)

end HarrisExtractor
end TrackingScore
