import Mathlib.Algebra.Order.Floor.Semiring
import TrackingScore.Image.Luma
import TrackingScore.Proofs.Exact.Extended
import TrackingScore.Proofs.WindowSimilarity

/-!
Maps of numbers shown as images of brightness. The finite numbers of a map alone decide how bright
each of them is shown: the range from the least to the greatest is stretched to that of a byte and cut
down to whole steps. So a greater number is never darker, and what is not finite changes nothing.
-/

namespace TrackingScore

open Scalar Set
open Extended (finite)

section extremes

theorem foldl_extremes (xs : List ℝ) {seen : Set ℝ} {low high : ℝ} (hlow : IsLeast seen low)
    (hhigh : IsGreatest seen high) :
    ∃ low' high', (xs.map finite).foldl (fun (low, high) y =>
        (if less y low then y else low, if less high y then y else high)) (finite low, finite high) =
          (finite low', finite high') ∧
      IsLeast (seen ∪ {x | x ∈ xs}) low' ∧ IsGreatest (seen ∪ {x | x ∈ xs}) high' := by
  induction xs generalizing seen low high with
  | nil => exact ⟨low, high, rfl, by simpa using hlow, by simpa using hhigh⟩
  | cons y xs ih =>
    obtain ⟨low', high', hfold, hlow', hhigh'⟩ := ih (hlow.insert y) (hhigh.insert y)
    have hseen : insert y seen ∪ {x | x ∈ xs} = seen ∪ {x | x ∈ y :: xs} := by
      ext x
      simp [or_left_comm, or_assoc]
    rw [hseen] at hlow' hhigh'
    refine ⟨low', high', ?_, hlow', hhigh'⟩
    rw [← hfold, List.map_cons, List.foldl_cons]
    refine congrArg (List.foldl _ · _) (Prod.ext ?_ ?_)
    · simp [min_def_lt, apply_ite finite]
    · simp [max_comm y, max_def_lt, apply_ite finite]

theorem extremes?_finite {xs : List ℝ} (hne : xs ≠ []) :
    ∃ low high, extremes? (xs.map finite) = some (finite low, finite high) ∧
      IsLeast {x | x ∈ xs} low ∧ IsGreatest {x | x ∈ xs} high := by
  obtain ⟨x, xs, rfl⟩ := List.exists_cons_of_ne_nil hne
  obtain ⟨low, high, hfold, hlow, hhigh⟩ :=
    foldl_extremes xs (isLeast_singleton (a := x)) isGreatest_singleton
  have hseen : {x} ∪ {y | y ∈ xs} = {y | y ∈ x :: xs} := by
    ext y
    simp
  rw [hseen] at hlow hhigh
  exact ⟨low, high, congrArg some hfold, hlow, hhigh⟩

end extremes

section finiteNumbers

theorem Raster.mem_toCells_iff {β : Type} {r : Raster β} {x : β} :
    x ∈ r.toCells ↔ ∃ p, r.cells.cell p = x := by
  simp only [toCells, Grid.toCells, List.mem_flatMap, Vector.mem_toList_iff, Vector.mem_iff_getElem]
  constructor
  · rintro ⟨_, ⟨i, hi, rfl⟩, j, hj, rfl⟩
    exact ⟨(⟨i, hi⟩, ⟨j, hj⟩), rfl⟩
  · rintro ⟨p, rfl⟩
    exact ⟨_, ⟨p.1, p.1.2, rfl⟩, p.2, p.2.2, rfl⟩

theorem Raster.cell_map {β γ : Type} (f : β → γ) (r : Raster β) (p : Fin r.height × Fin r.width) :
    (r.map f).cells.cell p = f (r.cells.cell p) := by
  change (Vector.map (Vector.map f) r.cells)[p.1.val][p.2.val] = f r.cells[p.1.val][p.2.val]
  rw [Vector.getElem_map, Vector.getElem_map]

/-- The finite numbers of a map. -/
def Raster.finiteNumbers (map : Raster Extended) : Set ℝ := {x | ∃ p, map.cells.cell p = finite x}

theorem Raster.mem_finiteNumbers_iff {map : Raster Extended} {x : ℝ} :
    x ∈ map.finiteNumbers ↔ x ∈ map.toCells.filterMap Extended.value? := by
  simp only [List.mem_filterMap, Extended.value?_eq_some_iff, exists_eq_right, mem_toCells_iff]
  rfl

theorem Raster.extremes_cases (map : Raster Extended) :
    (map.finiteNumbers = ∅ ∧ extremes? (map.toCells.filter isFinite) = none) ∨
      ∃ low high, extremes? (map.toCells.filter isFinite) = some (finite low, finite high) ∧
        IsLeast map.finiteNumbers low ∧ IsGreatest map.finiteNumbers high := by
  have hnumbers : map.finiteNumbers = {x | x ∈ map.toCells.filterMap Extended.value?} := by
    ext x
    exact mem_finiteNumbers_iff
  rw [hnumbers, Extended.filter_isFinite]
  rcases eq_or_ne (map.toCells.filterMap Extended.value?) [] with hnil | hne
  · left
    rw [hnil]
    exact ⟨by simp, rfl⟩
  · exact .inr (extremes?_finite hne)

end finiteNumbers

section shade

noncomputable def shade (low high x : ℝ) : UInt8 := .ofNat ⌊(x - low) / (high - low) * 255.0⌋₊

variable {low high x y : ℝ}

theorem stretched_mem_Icc (hx : x ∈ Icc low high) :
    (x - low) / (high - low) * 255.0 ∈ Icc (0 : ℝ) 255.0 := by
  have hbyte : (0 : ℝ) ≤ 255.0 := by norm_num
  have hpart : (x - low) / (high - low) ∈ Icc (0 : ℝ) 1 := by
    refine ⟨div_nonneg ?_ ?_, div_le_one_of_le₀ ?_ ?_⟩ <;> linarith [hx.1, hx.2]
  exact ⟨mul_nonneg hpart.1 hbyte, mul_le_of_le_one_left hbyte hpart.2⟩

theorem floor_stretched_le (hx : x ∈ Icc low high) :
    ⌊(x - low) / (high - low) * 255.0⌋₊ ≤ 255 := by
  refine Nat.floor_le_of_le ((stretched_mem_Icc hx).2.trans ?_)
  norm_num

theorem toNat_shade (hx : x ∈ Icc low high) :
    (shade low high x).toNat = ⌊(x - low) / (high - low) * 255.0⌋₊ := by
  rw [shade, UInt8.toNat_ofNat', Nat.mod_eq_of_lt (Nat.lt_succ_of_le (floor_stretched_le hx))]

theorem shade_mono (hx : low ≤ x) (hxy : x ≤ y) (hy : y ≤ high) :
    shade low high x ≤ shade low high y := by
  rw [UInt8.le_iff_toNat_le, toNat_shade ⟨hx, hxy.trans hy⟩, toNat_shade ⟨hx.trans hxy, hy⟩]
  have hrange : 0 ≤ high - low := by linarith
  gcongr

theorem shade_low : shade low high low = 0 := by
  simp [shade]

theorem shade_high (h : low < high) : shade low high high = 255 := by
  have hbyte : ⌊(255.0 : ℝ)⌋₊ = 255 := by norm_num
  rw [shade, div_self (sub_pos.2 h).ne', one_mul, hbyte]
  rfl

theorem toByte_clamp (hx : x ∈ Icc 0 255.0) :
    toByte (clamp (finite x) 0.0 255.0) = UInt8.ofNat ⌊x⌋₊ := by
  have hfloor : ⌊x⌋₊ ≤ 255 := Nat.floor_le_of_le (hx.2.trans (by norm_num))
  have hinside : clamp (finite x) 0.0 255.0 = finite x := by
    simp [clamp, Extended.decimal_def, zero_decimal, hx.1.not_gt, hx.2.not_gt]
  rw [hinside, Extended.toByte_finite]
  exact congrArg UInt8.ofNat (min_eq_left hfloor)

theorem stretch_of_range (h : low < high) :
    stretch (finite low) (finite high) (finite x) =
      toByte (clamp (finite ((x - low) / (high - low) * 255.0)) 0.0 255.0) := by
  have hrange := sub_pos.2 h
  simp [stretch, Extended.decimal_def, zero_decimal, hrange, Extended.finite_div _ _ hrange.ne']

theorem stretch_eq_zero {low high a : Extended}
    (h : (less 0.0 (high - low) && isFinite a) = false) : stretch low high a = 0 := by
  have hzero : (0.0 : Extended) = finite 0 := congrArg finite zero_decimal
  have hbyte : toByte (clamp (finite 0) 0.0 255.0) = UInt8.ofNat ⌊(0 : ℝ)⌋₊ :=
    toByte_clamp ⟨le_rfl, by norm_num⟩
  simp only [stretch, h, Bool.false_eq_true, if_false]
  rw [← hzero, Nat.floor_zero] at hbyte
  exact hbyte

theorem stretch_finite (hx : x ∈ Icc low high) :
    stretch (finite low) (finite high) (finite x) = shade low high x := by
  rcases (hx.1.trans hx.2).eq_or_lt with rfl | hlt
  · obtain rfl : x = low := le_antisymm hx.2 hx.1
    rw [shade_low, stretch_eq_zero]
    simp [Extended.decimal_def, zero_decimal]
  · rw [stretch_of_range hlt, toByte_clamp (stretched_mem_Icc hx), shade]

end shade

namespace Raster

variable {map other : Raster Extended} {pixels : Grid UInt8 map.height map.width} {low high : ℝ}

/-- How a map is shown: each pixel tells the entry at its place, in relation to the least and the
greatest of the finite ones. -/
structure ShownAs (map : Raster Extended) (pixels : Grid UInt8 map.height map.width) : Prop where
  shade_eq {low high : ℝ} : IsLeast map.finiteNumbers low → IsGreatest map.finiteNumbers high →
    ∀ p x, map.cells.cell p = finite x → pixels.cell p = shade low high x
  not_finite : ∀ p, isFinite (map.cells.cell p) = false → pixels.cell p = 0

theorem exists_shownAs (map : Raster Extended) :
    ∃ pixels, map.toLumaImage = ⟨map.height, map.width, pixels⟩ ∧ map.ShownAs pixels := by
  rcases map.extremes_cases with ⟨hempty, hextremes⟩ | ⟨low, high, hextremes, hlow, hhigh⟩
  · refine ⟨(map.map fun _ => 0).cells, by rw [toLumaImage, hextremes]; rfl, ?_, ?_⟩
    · intro low high hlow
      exact absurd hlow.1 (by simp [hempty])
    · exact fun p _ => cell_map _ _ _
  · refine ⟨(map.map (stretch (finite low) (finite high))).cells,
      by rw [toLumaImage, hextremes]; rfl, ?_, ?_⟩
    · intro low' high' hlow' hhigh' p x hp
      obtain rfl := hlow.unique hlow'
      obtain rfl := hhigh.unique hhigh'
      have hx : x ∈ map.finiteNumbers := ⟨p, hp⟩
      rw [← stretch_finite ⟨hlow.2 hx, hhigh.2 hx⟩, ← hp]
      exact cell_map _ _ _
    · intro p hp
      refine (cell_map _ _ _).trans (stretch_eq_zero ?_)
      rw [hp, Bool.and_false]

theorem exists_bounds (h : map.finiteNumbers.Nonempty) :
    ∃ low high, IsLeast map.finiteNumbers low ∧ IsGreatest map.finiteNumbers high := by
  rcases map.extremes_cases with ⟨hempty, -⟩ | ⟨low, high, -, hlow, hhigh⟩
  · exact absurd hempty h.ne_empty
  · exact ⟨low, high, hlow, hhigh⟩

namespace ShownAs

variable {p q : Fin map.height × Fin map.width} {x y : ℝ} (h : map.ShownAs pixels)
include h

theorem mono (hp : map.cells.cell p = finite x) (hq : map.cells.cell q = finite y) (hxy : x ≤ y) :
    pixels.cell p ≤ pixels.cell q := by
  obtain ⟨low, high, hlow, hhigh⟩ := exists_bounds ⟨x, p, hp⟩
  rw [h.shade_eq hlow hhigh p x hp, h.shade_eq hlow hhigh q y hq]
  exact shade_mono (hlow.2 ⟨p, hp⟩) hxy (hhigh.2 ⟨q, hq⟩)

theorem eq_black (hp : map.cells.cell p = finite x) (hx : IsLeast map.finiteNumbers x) :
    pixels.cell p = 0 := by
  obtain ⟨_, high, _, hhigh⟩ := exists_bounds ⟨x, p, hp⟩
  rw [h.shade_eq hx hhigh p x hp, shade_low]

theorem eq_white (hne : map.finiteNumbers.Nontrivial) (hp : map.cells.cell p = finite x)
    (hx : IsGreatest map.finiteNumbers x) : pixels.cell p = 255 := by
  obtain ⟨low, _, hlow, _⟩ := exists_bounds ⟨x, p, hp⟩
  obtain ⟨y, hy, hyx⟩ := hne.exists_ne x
  rw [h.shade_eq hlow hx p x hp, shade_high ((hlow.2 hy).trans_lt ((hx.2 hy).lt_of_ne hyx))]

theorem eq_black_of_subsingleton (hs : map.finiteNumbers.Subsingleton) (p) :
    pixels.cell p = 0 := by
  cases hfinite : isFinite (map.cells.cell p) with
  | false => exact h.not_finite p hfinite
  | true =>
    obtain ⟨x, hp⟩ := Extended.exists_of_isFinite hfinite
    exact h.eq_black hp ⟨⟨p, hp⟩, fun y hy => (hs ⟨p, hp⟩ hy).le⟩

theorem eq_of_finiteNumbers_eq {pixels' : Grid UInt8 other.height other.width}
    (h' : other.ShownAs pixels') (hsame : other.finiteNumbers = map.finiteNumbers)
    {q : Fin other.height × Fin other.width} (hp : map.cells.cell p = finite x)
    (hq : other.cells.cell q = finite x) : pixels'.cell q = pixels.cell p := by
  obtain ⟨low, high, hlow, hhigh⟩ := exists_bounds ⟨x, p, hp⟩
  rw [h.shade_eq hlow hhigh p x hp, h'.shade_eq (hsame ▸ hlow) (hsame ▸ hhigh) q x hq]

end ShownAs

/-- A map is shown in its own size, pixel by pixel. A greater finite entry is never darker, the least
ones are black and the greatest ones white unless all are equal, when everything is black. Entries that
are not finite are black and change no other pixel. -/
theorem toLumaImage_shows (map : Raster Extended) :
    ∃ pixels : Grid UInt8 map.height map.width,
      map.toLumaImage = ⟨map.height, map.width, pixels⟩ ∧ map.ShownAs pixels ∧
      (∀ p q x y, map.cells.cell p = finite x → map.cells.cell q = finite y → x ≤ y →
        pixels.cell p ≤ pixels.cell q) ∧
      (map.finiteNumbers.Nontrivial → ∀ p x, map.cells.cell p = finite x →
        (IsLeast map.finiteNumbers x → pixels.cell p = 0) ∧
        (IsGreatest map.finiteNumbers x → pixels.cell p = 255)) ∧
      (map.finiteNumbers.Subsingleton → ∀ p, pixels.cell p = 0) ∧
      ∀ other : Raster Extended, other.finiteNumbers = map.finiteNumbers →
        ∃ pixels' : Grid UInt8 other.height other.width,
          other.toLumaImage = ⟨other.height, other.width, pixels'⟩ ∧
          ∀ p q x, map.cells.cell p = finite x → other.cells.cell q = finite x →
            pixels'.cell q = pixels.cell p := by
  obtain ⟨pixels, himage, h⟩ := map.exists_shownAs
  refine ⟨pixels, himage, h, fun _ _ _ _ => h.mono,
    fun hne p x hp => ⟨h.eq_black hp, h.eq_white hne hp⟩,
    h.eq_black_of_subsingleton, fun other hsame => ?_⟩
  obtain ⟨pixels', himage', h'⟩ := other.exists_shownAs
  exact ⟨pixels', himage', fun _ _ _ => h.eq_of_finiteNumbers_eq h' hsame⟩

noncomputable def spotted : Grid Extended 2 2 :=
  #v[#v[.notANumber, finite 0], #v[finite 1, .infinite false]]

theorem finiteNumbers_spotted : finiteNumbers ⟨2, 2, spotted⟩ = {0, 1} := by
  ext x
  rw [mem_finiteNumbers_iff]
  simp [spotted, toCells, Grid.toCells, Extended.value?, eq_comm]

theorem toLumaImage_shows_spotted :
    ∃ pixels : Grid UInt8 2 2, toLumaImage ⟨2, 2, spotted⟩ = ⟨2, 2, pixels⟩ ∧
      pixels.cell (0, 0) = 0 ∧ pixels.cell (0, 1) = 0 ∧ pixels.cell (1, 0) = 255 ∧
      pixels.cell (1, 1) = 0 := by
  obtain ⟨pixels, himage, hshown, -, hends, -⟩ := toLumaImage_shows ⟨2, 2, spotted⟩
  rw [finiteNumbers_spotted] at hends
  have hne : ({0, 1} : Set ℝ).Nontrivial := Set.nontrivial_pair (by norm_num)
  have hleast : IsLeast ({0, 1} : Set ℝ) 0 := ⟨.inl rfl, by simp [lowerBounds]⟩
  have hgreatest : IsGreatest ({0, 1} : Set ℝ) 1 := ⟨.inr rfl, by simp [upperBounds]⟩
  exact ⟨pixels, himage, hshown.not_finite (0, 0) rfl, (hends hne (0, 1) 0 rfl).1 hleast,
    (hends hne (1, 0) 1 rfl).2 hgreatest, hshown.not_finite (1, 1) rfl⟩

end Raster
end TrackingScore
