import Mathlib.Data.List.Basic
import TrackingScore.Image.Matching
import TrackingScore.Proofs.Binary32

/-!
Matching of descriptors. A query is matched with the first of the rows at the least distance, and a
cross check keeps the pairs that are so both ways. The nearest pair of all is one of them, whatever
distances are equal, because the first row of several equally near ones is taken on both sides.
-/

namespace TrackingScore

open Scalar

section leastDistance

variable {ρ : Type} [Scalar ρ] {xs : List ρ} {j : Nat} {x : ρ}

/-- The least number of a list, at the first of its places. -/
structure FirstLeast (xs : List ρ) (j : Nat) (x : ρ) : Prop where
  get : xs[j]? = some x
  least : ∀ y ∈ xs, atMost x y = true
  first : ∀ k y, k < j → xs[k]? = some y → less x y = true

theorem FirstLeast.keep {y : ρ} (h : FirstLeast xs j x) (hxy : atMost x y = true) :
    FirstLeast (xs ++ [y]) j x := by
  have hj := (List.getElem?_eq_some_iff.1 h.get).1
  constructor
  case get => rw [List.getElem?_append_left hj, h.get]
  case least =>
    simp only [List.mem_append, List.mem_singleton]
    rintro z (hz | rfl)
    · exact h.least z hz
    · exact hxy
  case first =>
    intro k z hk hz
    rw [List.getElem?_append_left (hk.trans hj)] at hz
    exact h.first k z hk hz

variable [LawfulScalar ρ]

theorem FirstLeast.place_le {k : Nat} {y : ρ} (hj : FirstLeast xs j x) (hk : FirstLeast xs k y) :
    j ≤ k := by
  by_contra hlt
  have hless := hj.first k y (Nat.lt_of_not_le hlt) hk.get
  have hle := hk.least x (List.mem_of_getElem? hj.get)
  rw [(LawfulScalar.less_iff.1 hless).2] at hle
  exact Bool.false_ne_true hle

theorem FirstLeast.unique {k : Nat} {y : ρ} (hj : FirstLeast xs j x) (hk : FirstLeast xs k y) :
    j = k ∧ x = y := by
  obtain rfl := Nat.le_antisymm (hj.place_le hk) (hk.place_le hj)
  exact ⟨rfl, Option.some.inj (hj.get.symm.trans hk.get)⟩

theorem firstLeast_singleton (hx : isNaN x = false) : FirstLeast [x] 0 x where
  get := rfl
  least := List.forall_mem_singleton.2 (LawfulScalar.atMost_self hx)
  first _ _ hk := absurd hk (Nat.not_lt_zero _)

theorem FirstLeast.replace {y : ρ} (h : FirstLeast xs j x) (hyx : less y x = true) :
    FirstLeast (xs ++ [y]) xs.length y := by
  have hless : ∀ z ∈ xs, less y z = true := fun z hz =>
    LawfulScalar.less_of_less_of_atMost hyx (h.least z hz)
  have hy := (LawfulScalar.not_isNaN_of_atMost (LawfulScalar.atMost_of_less hyx)).1
  constructor
  case get => exact List.getElem?_concat_length
  case least =>
    simp only [List.mem_append, List.mem_singleton]
    rintro z (hz | rfl)
    · exact LawfulScalar.atMost_of_less (hless z hz)
    · exact LawfulScalar.atMost_self hy
  case first =>
    intro k z hk hz
    rw [List.getElem?_append_left hk] at hz
    exact hless z (List.mem_of_getElem? hz)

theorem exists_firstLeast (hnan : ∀ x ∈ xs, isNaN x = false) (hne : xs ≠ []) :
    ∃ j x, (xs.mapIdx Prod.mk).foldl nearer none = some (j, x) ∧ FirstLeast xs j x := by
  induction xs using List.reverseRecOn with
  | nil => exact absurd rfl hne
  | append_singleton xs y ih =>
    have hy := hnan y (List.mem_append_right xs (List.mem_singleton_self y))
    rw [List.mapIdx_concat, List.foldl_append, List.foldl_cons, List.foldl_nil]
    rcases eq_or_ne xs [] with rfl | hxs
    · exact ⟨0, y, rfl, firstLeast_singleton hy⟩
    · obtain ⟨j, x, hfold, hleast⟩ := ih (fun x hx => hnan x (List.mem_append_left _ hx)) hxs
      have hx := hnan x (List.mem_append_left _ (List.mem_of_getElem? hleast.get))
      rw [hfold, nearer]
      cases hxy : atMost x y with
      | true => exact ⟨j, x, rfl, hleast.keep hxy⟩
      | false =>
        exact ⟨xs.length, y, rfl, hleast.replace (LawfulScalar.less_of_not_atMost hx hy hxy)⟩

end leastDistance

section lists

variable {β γ : Type} {f g : Nat → β → Option γ} {l : List β}

theorem mem_filterMap_mapIdx {c : γ} :
    c ∈ (l.mapIdx f).filterMap id ↔ ∃ i b, l[i]? = some b ∧ f i b = some c := by
  simp only [List.mem_filterMap, List.mem_mapIdx, id_eq, exists_eq_right, List.getElem?_eq_some_iff]
  grind

theorem map_filterMap_mapIdx_eq_range {key : γ → Nat}
    (h : ∀ i b, l[i]? = some b → ∃ c, f i b = some c ∧ key c = i) :
    ((l.mapIdx f).filterMap id).map key = List.range l.length := by
  induction l using List.reverseRecOn with
  | nil => rfl
  | append_singleton l b ih =>
    obtain ⟨c, hc, hkey⟩ := h l.length b List.getElem?_concat_length
    have hl := ih fun i a ha => h i a
      ((List.getElem?_append_left (List.getElem?_eq_some_iff.1 ha).1).trans ha)
    rw [List.mapIdx_concat, List.filterMap_append, List.map_append, hl, List.length_append]
    simp [hc, hkey, List.range_succ]

theorem filterMap_mapIdx_sublist (h : ∀ i b c, f i b = some c → g i b = some c) :
    ((l.mapIdx f).filterMap id).Sublist ((l.mapIdx g).filterMap id) := by
  induction l using List.reverseRecOn with
  | nil => exact .slnil
  | append_singleton l b ih =>
    rw [List.mapIdx_concat, List.mapIdx_concat, List.filterMap_append, List.filterMap_append]
    refine ih.append ?_
    cases hf : f l.length b with
    | none => simp
    | some c => simp [h _ _ _ hf]

end lists

section nearest

variable {ρ : Type} [Scalar ρ]

def DescriptorMatch.swap (p : DescriptorMatch ρ) : DescriptorMatch ρ :=
  ⟨p.train, p.query, p.distance⟩

/-- The root of the squared differences of two rows, added up from left to right. -/
def euclidean (a b : List ρ) : ρ :=
  sqrt (((a.zip b).map fun pair => (pair.1 - pair.2) * (pair.1 - pair.2)).foldl (· + ·) (-0.0))

theorem rowDistance_eq (a b : List ρ) : rowDistance a b = euclidean a b := by
  rw [euclidean, List.map_zip_eq_zipWith]
  rfl

def Measurable (query train : List (List ρ)) : Prop :=
  ∀ row ∈ query, ∀ other ∈ train, isNaN (euclidean row other) = false

instance (query train : List (List ρ)) : Decidable (Measurable query train) :=
  inferInstanceAs (Decidable (∀ row ∈ query, ∀ other ∈ train, _ = _))

/-- A query row and the first of the train rows at the least distance from it. -/
def Nearest (query train : List (List ρ)) (p : DescriptorMatch ρ) : Prop :=
  ∃ row, query[p.query]? = some row ∧ FirstLeast (train.map (euclidean row)) p.train p.distance

theorem nearestRow?_eq (descriptor : List ρ) (rows : List (List ρ)) :
    nearestRow? descriptor rows =
      ((rows.map (euclidean descriptor)).mapIdx Prod.mk).foldl nearer none := by
  have hpairs : rows.mapIdx (fun index row => (index, euclidean descriptor row)) =
      (rows.map (euclidean descriptor)).mapIdx Prod.mk :=
    List.ext_getElem (by simp) (by simp)
  simp only [nearestRow?, rowDistance_eq, hpairs]

theorem FirstLeast.exists_row {descriptor : List ρ} {rows : List (List ρ)} {j : Nat} {x : ρ}
    (h : FirstLeast (rows.map (euclidean descriptor)) j x) :
    ∃ row, rows[j]? = some row ∧ euclidean descriptor row = x := by
  have hget := h.get
  rwa [List.getElem?_map, Option.map_eq_some_iff] at hget

variable {query train : List (List ρ)} {p : DescriptorMatch ρ}

theorem Nearest.not_isNaN (h : Measurable query train) (hp : Nearest query train p) :
    isNaN p.distance = false := by
  obtain ⟨row, hrow, hleast⟩ := hp
  obtain ⟨other, hother, hdistance⟩ := hleast.exists_row
  rw [← hdistance]
  exact h row (List.mem_of_getElem? hrow) other (List.mem_of_getElem? hother)

variable [LawfulScalar ρ]

theorem euclidean_comm (a b : List ρ) : euclidean a b = euclidean b a := by
  rw [euclidean, ← List.zip_swap, List.map_map]
  exact congrArg (fun xs => sqrt (List.foldl (· + ·) (-0.0) xs))
    (List.map_congr_left fun pair _ => LawfulScalar.square_sub_comm pair.2 pair.1)

theorem Measurable.swap (h : Measurable query train) : Measurable train query := by
  intro row hrow other hother
  rw [euclidean_comm]
  exact h other hother row hrow

theorem exists_nearestRow? {descriptor : List ρ} {rows : List (List ρ)}
    (h : ∀ row ∈ rows, isNaN (euclidean descriptor row) = false) (hne : rows ≠ []) :
    ∃ j x, nearestRow? descriptor rows = some (j, x) ∧
      FirstLeast (rows.map (euclidean descriptor)) j x := by
  rw [nearestRow?_eq]
  exact exists_firstLeast (List.forall_mem_map.2 h) (mt List.map_eq_nil_iff.1 hne)

theorem nearestRow?_eq_some_iff {descriptor : List ρ} {rows : List (List ρ)} {j : Nat} {x : ρ}
    (h : ∀ row ∈ rows, isNaN (euclidean descriptor row) = false) :
    nearestRow? descriptor rows = some (j, x) ↔
      FirstLeast (rows.map (euclidean descriptor)) j x := by
  rcases eq_or_ne rows [] with rfl | hne
  · refine iff_of_false (by simp [nearestRow?]) fun hleast => ?_
    exact List.not_mem_nil (List.mem_of_getElem? hleast.get)
  · obtain ⟨k, y, hnearest, hleast⟩ := exists_nearestRow? h hne
    rw [hnearest]
    constructor
    · intro heq
      cases heq
      exact hleast
    · intro hj
      obtain ⟨rfl, rfl⟩ := hleast.unique hj
      rfl

theorem Nearest.exists_of_getElem? (h : Measurable query train) (hne : train ≠ []) {i : Nat}
    {row : List ρ} (hrow : query[i]? = some row) :
    ∃ p, Nearest query train p ∧ p.query = i := by
  obtain ⟨j, x, _, hleast⟩ := exists_nearestRow? (h row (List.mem_of_getElem? hrow)) hne
  exact ⟨⟨i, j, x⟩, ⟨row, hrow, hleast⟩, rfl⟩

theorem Nearest.unique {q : DescriptorMatch ρ} (hp : Nearest query train p)
    (hq : Nearest query train q) (heq : p.query = q.query) : p = q := by
  obtain ⟨i, j, x⟩ := p
  obtain ⟨k, l, y⟩ := q
  obtain rfl : i = k := heq
  obtain ⟨row, hrow, hp⟩ := hp
  obtain ⟨other, hother, hq⟩ := hq
  obtain rfl := Option.some.inj (hrow.symm.trans hother)
  obtain ⟨rfl, rfl⟩ := hp.unique hq
  rfl

/-- A query row that comes nearer to its neighbour than any query row before it comes to anything,
and as near as the others, is the first one nearest to that neighbour. -/
theorem Nearest.swap_of_firstLeast {distances : List ρ}
    (hrows : ∀ (i : Nat) row, query[i]? = some row → ∃ x, distances[i]? = some x ∧
      ∃ j, FirstLeast (train.map (euclidean row)) j x)
    (hp : Nearest query train p) (hfirst : FirstLeast distances p.query p.distance) :
    Nearest train query p.swap := by
  obtain ⟨row, hrow, hleast⟩ := hp
  obtain ⟨other, hother, hdistance⟩ := hleast.exists_row
  have hle {i : Nat} {r : List ρ} (hr : query[i]? = some r) :
      ∃ x, distances[i]? = some x ∧ atMost x (euclidean other r) = true := by
    obtain ⟨x, hx, _, hleast⟩ := hrows i r hr
    rw [euclidean_comm]
    exact ⟨x, hx, hleast.least _ (List.mem_map_of_mem (List.mem_of_getElem? hother))⟩
  refine ⟨other, hother, ?_, ?_, ?_⟩
  · change (query.map (euclidean other))[p.query]? = some p.distance
    rw [List.getElem?_map, hrow, Option.map_some, euclidean_comm, hdistance]
  · intro y hy
    obtain ⟨i, hi⟩ := List.mem_iff_getElem?.1 hy
    rw [List.getElem?_map, Option.map_eq_some_iff] at hi
    obtain ⟨r, hr, rfl⟩ := hi
    obtain ⟨x, hx, hxr⟩ := hle hr
    exact LawfulScalar.atMost_trans (hfirst.least x (List.mem_of_getElem? hx)) hxr
  · intro i y hlt hi
    rw [List.getElem?_map, Option.map_eq_some_iff] at hi
    obtain ⟨r, hr, rfl⟩ := hi
    obtain ⟨x, hx, hxr⟩ := hle hr
    exact LawfulScalar.less_of_less_of_atMost (hfirst.first i x hlt hx) hxr

end nearest

namespace BruteForceMatcher

variable {ρ : Type} [Scalar ρ]

/-- The matches of rows that are of one size. -/
def pairs (m : BruteForceMatcher) (query train : List (List ρ)) : List (DescriptorMatch ρ) :=
  (query.mapIdx (m.matchOf? query train)).filterMap id

theorem matchRows_eq_ok {α : Type} (m : BruteForceMatcher) {query train : Descriptors ρ}
    (h : query.size = train.size) :
    m.matchRows (α := α) query train = .ok (m.pairs query.rows train.rows) :=
  if_pos h

theorem matchRows_eq_error_iff {α : Type} (m : BruteForceMatcher) (query train : Descriptors ρ) :
    m.matchRows query train =
        .error (EvalError.invalidParameter (α := α) (.descriptorSizes query.size train.size)) ↔
      query.size ≠ train.size := by
  rw [matchRows]
  split <;> simp [*]

variable {query train : List (List ρ)} {p : DescriptorMatch ρ}

theorem matchOf?_checked {i : Nat} {row : List ρ} :
    (BruteForceMatcher.mk true).matchOf? query train i row = some p ↔
      (BruteForceMatcher.mk false).matchOf? query train i row = some p ∧
        isMutual query train i p.train = true := by
  rw [matchOf?, matchOf?]
  cases nearestRow? row train with
  | none => simp
  | some best =>
    cases hmutual : isMutual query train i best.1 <;> simp <;> grind

theorem pairs_nil (m : BruteForceMatcher) (query : List (List ρ)) : m.pairs query [] = [] := by
  simp [pairs, matchOf?, nearestRow?, List.mapIdx_eq_zipIdx_map]

theorem pairs_checked_sublist (query train : List (List ρ)) :
    ((BruteForceMatcher.mk true).pairs query train).Sublist
      ((BruteForceMatcher.mk false).pairs query train) :=
  filterMap_mapIdx_sublist fun _ _ _ hp => (matchOf?_checked.1 hp).1

variable [LawfulScalar ρ]

theorem matchOf?_unchecked {i : Nat} {row : List ρ}
    (h : ∀ other ∈ train, isNaN (euclidean row other) = false) :
    (BruteForceMatcher.mk false).matchOf? query train i row = some p ↔
      p.query = i ∧ FirstLeast (train.map (euclidean row)) p.train p.distance := by
  rw [← nearestRow?_eq_some_iff h, matchOf?]
  obtain ⟨k, j, x⟩ := p
  cases nearestRow? row train with
  | none => simp
  | some best => simp [Prod.ext_iff, eq_comm]

theorem mem_pairs_unchecked (h : Measurable query train) :
    p ∈ (BruteForceMatcher.mk false).pairs query train ↔ Nearest query train p := by
  rw [pairs, mem_filterMap_mapIdx]
  constructor
  · rintro ⟨i, row, hrow, hp⟩
    obtain ⟨rfl, hleast⟩ := (matchOf?_unchecked (h row (List.mem_of_getElem? hrow))).1 hp
    exact ⟨row, hrow, hleast⟩
  · rintro ⟨row, hrow, hleast⟩
    have hmeasurable := h row (List.mem_of_getElem? hrow)
    exact ⟨p.query, row, hrow, (matchOf?_unchecked hmeasurable).2 ⟨rfl, hleast⟩⟩

theorem isMutual_iff (h : Measurable train query) {i j : Nat} :
    isMutual query train i j = true ↔
      ∃ row x, train[j]? = some row ∧ FirstLeast (query.map (euclidean row)) i x := by
  rw [isMutual]
  cases hj : train[j]? with
  | none => simp
  | some row =>
    have hmeasurable := h row (List.mem_of_getElem? hj)
    have hiff := fun k x => nearestRow?_eq_some_iff (j := k) (x := x) hmeasurable
    cases hrow : nearestRow? row query with
    | none => simp [← hiff, hrow]
    | some best => simp [← hiff, hrow, Prod.ext_iff, eq_comm]

theorem mem_pairs_checked (h : Measurable query train) :
    p ∈ (BruteForceMatcher.mk true).pairs query train ↔
      Nearest query train p ∧ Nearest train query p.swap := by
  rw [← mem_pairs_unchecked h, pairs, pairs, mem_filterMap_mapIdx, mem_filterMap_mapIdx]
  simp only [matchOf?_checked]
  constructor
  · rintro ⟨i, row, hrow, hp, hmutual⟩
    obtain ⟨other, x, hother, hback⟩ := (isMutual_iff h.swap).1 hmutual
    obtain ⟨rfl, hleast⟩ := (matchOf?_unchecked (h row (List.mem_of_getElem? hrow))).1 hp
    obtain ⟨row', hrow', hx⟩ := hback.exists_row
    obtain ⟨other', hother', hdistance⟩ := hleast.exists_row
    cases hrow.symm.trans hrow'
    cases hother.symm.trans hother'
    rw [← hx, euclidean_comm, hdistance] at hback
    exact ⟨⟨_, row, hrow, hp⟩, other, hother, hback⟩
  · rintro ⟨⟨i, row, hrow, hp⟩, other, hother, hback⟩
    obtain ⟨rfl, -⟩ := (matchOf?_unchecked (h row (List.mem_of_getElem? hrow))).1 hp
    exact ⟨_, row, hrow, hp, (isMutual_iff h.swap).2 ⟨other, _, hother, hback⟩⟩

theorem map_query_pairs (h : Measurable query train) (hne : train ≠ []) :
    ((BruteForceMatcher.mk false).pairs query train).map (·.query) = List.range query.length := by
  refine map_filterMap_mapIdx_eq_range fun i row hrow => ?_
  obtain ⟨p, ⟨row', hrow', hleast⟩, rfl⟩ := Nearest.exists_of_getElem? h hne hrow
  cases hrow.symm.trans hrow'
  exact ⟨p, (matchOf?_unchecked (h row (List.mem_of_getElem? hrow))).2 ⟨rfl, hleast⟩, rfl⟩

theorem getElem?_pairs_iff (h : Measurable query train) (hne : train ≠ []) {i : Nat} :
    ((BruteForceMatcher.mk false).pairs query train)[i]? = some p ↔
      Nearest query train p ∧ p.query = i := by
  have hquery {k : Nat} {q : DescriptorMatch ρ}
      (hq : ((BruteForceMatcher.mk false).pairs query train)[k]? = some q) : q.query = k := by
    have hmap := congrArg (·[k]?) (map_query_pairs h hne)
    simp only [List.getElem?_map, hq, Option.map_some] at hmap
    obtain ⟨_, hk⟩ := List.getElem?_eq_some_iff.1 hmap.symm
    rw [← hk, List.getElem_range]
  constructor
  · intro hp
    exact ⟨(mem_pairs_unchecked h).1 (List.mem_of_getElem? hp), hquery hp⟩
  · rintro ⟨hp, rfl⟩
    obtain ⟨k, hk⟩ := List.mem_iff_getElem?.1 ((mem_pairs_unchecked h).2 hp)
    rwa [hquery hk]

theorem pairs_checked_ne_nil (h : Measurable query train) (hquery : query ≠ [])
    (htrain : train ≠ []) : (BruteForceMatcher.mk true).pairs query train ≠ [] := by
  let distances := ((BruteForceMatcher.mk false).pairs query train).map (·.distance)
  have hrows (i : Nat) (row : List ρ) (hrow : query[i]? = some row) :
      ∃ x, distances[i]? = some x ∧ ∃ j, FirstLeast (train.map (euclidean row)) j x := by
    obtain ⟨p, hp, hi⟩ := Nearest.exists_of_getElem? h htrain hrow
    have hget := (getElem?_pairs_iff h htrain).2 ⟨hp, hi⟩
    obtain ⟨row', hrow', hleast⟩ := hp
    rw [hi, hrow] at hrow'
    cases hrow'
    exact ⟨p.distance, by rw [List.getElem?_map, hget, Option.map_some], p.train, hleast⟩
  have hnan : ∀ x ∈ distances, isNaN x = false := by
    intro _ hx
    obtain ⟨p, hp, rfl⟩ := List.mem_map.1 hx
    exact ((mem_pairs_unchecked h).1 hp).not_isNaN h
  have hne : distances ≠ [] := by
    obtain ⟨row, hrow⟩ := List.exists_mem_of_ne_nil query hquery
    obtain ⟨i, hi⟩ := List.mem_iff_getElem?.1 hrow
    obtain ⟨x, hx, _⟩ := hrows i row hi
    exact List.ne_nil_of_mem (List.mem_of_getElem? hx)
  obtain ⟨i, x, _, hfirst⟩ := exists_firstLeast hnan hne
  obtain ⟨p, hp, rfl⟩ := Option.map_eq_some_iff.1 (List.getElem?_map.symm.trans hfirst.get)
  obtain ⟨hnearest, rfl⟩ := (getElem?_pairs_iff h htrain).1 hp
  exact List.ne_nil_of_mem
    ((mem_pairs_checked h).2 ⟨hnearest, hnearest.swap_of_firstLeast hrows hfirst⟩)

theorem nodup_map_query (h : Measurable query train) :
    (((BruteForceMatcher.mk true).pairs query train).map (·.query)).Nodup := by
  rcases eq_or_ne train [] with rfl | hne
  · rw [pairs_nil]
    exact List.nodup_nil
  · refine ((pairs_checked_sublist query train).map _).nodup ?_
    rw [map_query_pairs h hne]
    exact List.nodup_range

theorem nodup_map_train (h : Measurable query train) :
    (((BruteForceMatcher.mk true).pairs query train).map (·.train)).Nodup := by
  refine (nodup_map_query h).of_map.map_on fun p hp q hq heq => ?_
  have hswap := ((mem_pairs_checked h).1 hp).2.unique ((mem_pairs_checked h).1 hq).2 heq
  exact congrArg DescriptorMatch.swap hswap

/-- Matching fails for rows of different sizes only. Unchecked, it takes for every query row, in
order, the first of the nearest train rows. Checked, it keeps the pairs that are so both ways: a part
of the unchecked ones in which no row stands twice, the same from either side, and not empty unless
one of the sets is. -/
theorem matchRows_nearest {α : Type} (query train : Descriptors ρ)
    (h : Measurable query.rows train.rows) :
    (∀ m : BruteForceMatcher, m.matchRows query train =
          .error (EvalError.invalidParameter (α := α) (.descriptorSizes query.size train.size)) ↔
        query.size ≠ train.size) ∧
      (query.size = train.size → ∃ all checked swapped : List (DescriptorMatch ρ),
        (BruteForceMatcher.mk false).matchRows (α := α) query train = .ok all ∧
        (BruteForceMatcher.mk true).matchRows (α := α) query train = .ok checked ∧
        (BruteForceMatcher.mk true).matchRows (α := α) train query = .ok swapped ∧
        (train.rows = [] → all = []) ∧
        (train.rows ≠ [] → all.map (·.query) = List.range query.rows.length) ∧
        (∀ p, p ∈ all ↔ Nearest query.rows train.rows p) ∧
        (∀ p, p ∈ checked ↔
          Nearest query.rows train.rows p ∧ Nearest train.rows query.rows p.swap) ∧
        (checked.map (·.query)).Nodup ∧ (checked.map (·.train)).Nodup ∧
        checked.Sublist all ∧
        (∀ p, p ∈ swapped ↔ p.swap ∈ checked) ∧
        (query.rows ≠ [] → train.rows ≠ [] → checked ≠ [])) := by
  refine ⟨fun m => matchRows_eq_error_iff m query train, fun hsize => ?_⟩
  refine ⟨_, _, _, matchRows_eq_ok _ hsize, matchRows_eq_ok _ hsize, matchRows_eq_ok _ hsize.symm,
    ?_, map_query_pairs h, fun _ => mem_pairs_unchecked h, fun _ => mem_pairs_checked h,
    nodup_map_query h, nodup_map_train h, pairs_checked_sublist _ _, ?_, pairs_checked_ne_nil h⟩
  · intro hempty
    rw [hempty, pairs_nil]
  · intro p
    rw [mem_pairs_checked h, mem_pairs_checked h.swap, and_comm]
    rfl

def tied : Descriptors Float32 × Descriptors Float32 :=
  (⟨2, [[0.0, 0.0], [0.0, 8.0], [6.0, 8.0]], by simp⟩,
    ⟨2, [[3.0, 4.0], [3.0, 4.0], [0.0, 1.0]], by simp⟩)

theorem matchRows_nearest_tied :
    Measurable tied.1.rows tied.2.rows ∧ tied.1.size = tied.2.size ∧
      (BruteForceMatcher.mk false).matchRows (α := Float) tied.1 tied.2 =
        .ok [⟨0, 2, 1.0⟩, ⟨1, 0, 5.0⟩, ⟨2, 0, 5.0⟩] ∧
      (BruteForceMatcher.mk true).matchRows (α := Float) tied.1 tied.2 = .ok [⟨0, 2, 1.0⟩] ∧
      Nearest tied.1.rows tied.2.rows ⟨1, 0, 5.0⟩ ∧
      ¬Nearest tied.2.rows tied.1.rows ⟨0, 1, 5.0⟩ := by
  have hmeasurable : Measurable tied.1.rows tied.2.rows := by decide +kernel
  have hsize : tied.1.size = tied.2.size := rfl
  obtain ⟨_, hok⟩ := matchRows_nearest (α := Float) tied.1 tied.2 hmeasurable
  obtain ⟨all, checked, _, hall, hchecked, _, _, _, hnearest, hmutual, _⟩ := hok hsize
  have hpairs : (BruteForceMatcher.mk false).pairs tied.1.rows tied.2.rows =
      [⟨0, 2, 1.0⟩, ⟨1, 0, 5.0⟩, ⟨2, 0, 5.0⟩] := by decide +kernel
  have hkept : (BruteForceMatcher.mk true).pairs tied.1.rows tied.2.rows = [⟨0, 2, 1.0⟩] := by
    decide +kernel
  rw [matchRows_eq_ok _ hsize, hpairs] at hall
  rw [matchRows_eq_ok _ hsize, hkept] at hchecked
  obtain rfl := Except.ok.inj hall
  obtain rfl := Except.ok.inj hchecked
  have hsecond := (hnearest ⟨1, 0, 5.0⟩).1 (List.mem_cons_of_mem _ List.mem_cons_self)
  refine ⟨hmeasurable, hsize, by rw [matchRows_eq_ok _ hsize, hpairs],
    by rw [matchRows_eq_ok _ hsize, hkept], hsecond, fun hback => ?_⟩
  have hmem := (hmutual ⟨1, 0, 5.0⟩).2 ⟨hsecond, hback⟩
  exact Nat.one_ne_zero (congrArg DescriptorMatch.query (List.mem_singleton.1 hmem))

end BruteForceMatcher

end TrackingScore
