import TrackingScore.Proofs.OverlappingCalls

/-!
Where the answers of a memo come from. A value that is returned for a key was computed for an argument
with that key, in calls that follow each other and in calls that overlap.
-/

namespace TrackingScore.Memo

variable {A ι κ υ ε σ : Type}

/-! ## One call after the other -/

def Lookup.arg : Lookup A → A
  | .call arg => arg
  | .tryCall arg => arg

/-- Every value that is answered was computed, then or before, for an argument that has to do with the
one asked for. -/
def AnswersFrom (related : A → A → Prop) (f : Wrapped A κ υ ε σ) (visits : List (Visit A κ υ ε σ)) :
    Prop :=
  ∀ past visit rest lookup value, visits = past ++ visit :: rest →
    visit.request = .lookup lookup → visit.reply = .result (.ok value) →
    ∃ earlier ∈ past ++ [visit], ∃ other, earlier.request = .lookup other ∧
      (other.compute f earlier.before.state).1 = .ok value ∧ related other.arg lookup.arg

section visits

variable {f : Wrapped A κ υ ε σ} {past : List (Visit A κ υ ε σ)} {key : κ} {value : υ}

theorem mem_addComputed {pairs : List (κ × υ)} {visit : Visit A κ υ ε σ}
    (h : (key, value) ∈ addComputed f pairs visit) :
    (key, value) ∈ pairs ∨ ∃ lookup, visit.request = .lookup lookup ∧ lookup.key f = .ok key ∧
      .ok value ∈ visit.results := by
  unfold addComputed at h
  split at h
  · rename_i lookup hrequest
    split at h
    · rename_i own hown
      refine (List.mem_append.1 h).imp_right fun hmem => ?_
      obtain ⟨result, hresult, hpair⟩ := List.mem_filterMap.1 hmem
      cases result with
      | error error => simp [pair?, Except.toOption] at hpair
      | ok given =>
        obtain ⟨rfl, rfl⟩ : own = key ∧ given = value := by
          simpa [pair?, Except.toOption] using hpair
        exact ⟨lookup, hrequest, hown, hresult⟩
    · exact .inl h
  · exact .inl h
  · exact absurd h List.not_mem_nil

theorem exists_visit_of_computed (h : (key, value) ∈ computed f past) :
    ∃ visit ∈ past, ∃ lookup, visit.request = .lookup lookup ∧ lookup.key f = .ok key ∧
      .ok value ∈ visit.results := by
  induction past using List.reverseRecOn with
  | nil => exact absurd h List.not_mem_nil
  | append_singleton past last ih =>
    rw [computed_append_visit] at h
    rcases mem_addComputed h with hmem | hlast
    · obtain ⟨visit, hvisit, hrest⟩ := ih hmem
      exact ⟨visit, List.mem_append_left _ hvisit, hrest⟩
    · exact ⟨last, by simp, hlast⟩

variable [DecidableEq κ] {state : σ} {requests : List (Request A)} {rest : List (Visit A κ υ ε σ)}
  {visit : Visit A κ υ ε σ} {lookup : Lookup A}

theorem transparent_from_empty (hsplit : visits f ⟨empty, state⟩ requests = past ++ visit :: rest) :
    Transparent f past visit := by
  have h : Transparent f ([] ++ past) visit := transparent_of_visits (tells_empty f) hsplit
  exact h

theorem compute_of_mem_results
    (hsplit : visits f ⟨empty, state⟩ requests = past ++ visit :: rest)
    (hrequest : visit.request = .lookup lookup) (hkey : lookup.key f = .ok key)
    (hresult : .ok value ∈ visit.results) :
    (lookup.compute f visit.before.state).1 = .ok value := by
  have htransparent := transparent_from_empty hsplit
  simp only [Transparent, hrequest, hkey] at htransparent
  obtain ⟨hhit, hmiss⟩ := htransparent
  by_cases hcomputed : ∃ given, (key, given) ∈ computed f past
  · obtain ⟨given, hmem⟩ := hcomputed
    rw [(hhit given hmem).results_eq] at hresult
    exact absurd hresult List.not_mem_nil
  · obtain ⟨result, hruns⟩ := hmiss (not_exists.1 hcomputed)
    rw [hruns.results_eq] at hresult
    rw [hruns.compute_eq, List.mem_singleton.1 hresult]

theorem answersFrom_visits {used : A → Prop} {related : A → A → Prop}
    (hused : ∀ lookup, .lookup lookup ∈ requests → used lookup.arg)
    (hrelated : ∀ (lookup other : Lookup A) key, used lookup.arg → used other.arg →
      lookup.key f = .ok key → other.key f = .ok key → related other.arg lookup.arg) :
    AnswersFrom related f (visits f ⟨empty, state⟩ requests) := by
  intro past visit rest lookup value hsplit hrequest hreply
  have hvisited : ∀ visit ∈ visits f ⟨empty, state⟩ requests, ∀ lookup,
      visit.request = .lookup lookup → used lookup.arg := by
    intro visit hvisit lookup hlookup
    refine hused lookup ?_
    rw [← map_request_visits f ⟨empty, state⟩ requests, ← hlookup]
    exact List.mem_map_of_mem hvisit
  have hlookup := hvisited visit (by simp [hsplit]) lookup hrequest
  have htransparent := transparent_from_empty hsplit
  simp only [Transparent, hrequest] at htransparent
  cases hkey : lookup.key f with
  | error error =>
    simp only [hkey] at htransparent
    cases hreply.symm.trans htransparent.reply_eq
  | ok key =>
    simp only [hkey] at htransparent
    obtain ⟨hhit, hmiss⟩ := htransparent
    by_cases hcomputed : ∃ given, (key, given) ∈ computed f past
    · obtain ⟨given, hmem⟩ := hcomputed
      obtain rfl : value = given := by simpa using hreply.symm.trans (hhit given hmem).reply_eq
      obtain ⟨earlier, hearlier, other, hother, hotherKey, hresult⟩ := exists_visit_of_computed hmem
      obtain ⟨front, behind, rfl⟩ := List.append_of_mem hearlier
      have hfront : visits f ⟨empty, state⟩ requests =
          front ++ earlier :: (behind ++ visit :: rest) := by simpa using hsplit
      exact ⟨earlier, by simp, other, hother, compute_of_mem_results hfront hother hotherKey hresult,
        hrelated lookup other key hlookup (hvisited earlier (by simp [hfront]) other hother) hkey
          hotherKey⟩
    · obtain ⟨result, hruns⟩ := hmiss (not_exists.1 hcomputed)
      obtain rfl : Except.ok value = result := by simpa using hreply.symm.trans hruns.reply_eq
      exact ⟨visit, by simp, lookup, hrequest, congrArg Prod.fst hruns.compute_eq,
        hrelated lookup lookup key hlookup hlookup hkey hkey⟩

end visits

/-! ## Overlapping calls -/

theorem mem_entries_store [DecidableEq κ] {memo : Memo κ υ} {key : κ} {value : υ} {entry : κ × υ}
    (h : entry ∈ (memo.store key value).2.entries) :
    entry ∈ memo.entries ∨ entry = (key, value) := by
  cases hlookup : memo.lookup key with
  | some kept => exact .inl (by rwa [store_of_lookup_eq_some value hlookup] at h)
  | none =>
    rw [store_of_lookup_eq_none value hlookup] at h
    simpa using h

namespace Overlap

variable [DecidableEq ι] [DecidableEq κ] (key : ι → Except ε κ)

/-- In a run from `s` to `t` the function gave a value for a call. -/
def Computed (s t : Overlap ι κ υ ε) (i : ι) (value : υ) : Prop :=
  ∃ before, Run key s before ∧ before.progress i = .missed ∧
    Run key (before.advance i (.computed value)) t

def AnswersFrom (related : ι → ι → Prop) (s : Overlap ι κ υ ε) : Prop :=
  ∀ i value, s.progress i = .returned (.ok value) → ∃ j, Computed key start s j value ∧ related j i

/-- What holds of a run: its values were computed, those that are stored for a call with their key. -/
structure Sourced (s t : Overlap ι κ υ ε) : Prop where
  computed : ∀ i value, t.progress i = .computed value → Computed key s t i value
  stored : ∀ k value, (k, value) ∈ t.memo.entries →
    ∃ j, key j = .ok k ∧ Computed key s t j value

variable {key} {s t u : Overlap ι κ υ ε} {i : ι} {k : κ} {value : υ}

theorem Computed.trans (h : Computed key s t i value) (hrun : Run key t u) :
    Computed key s u i value := by
  obtain ⟨before, hbefore, hmissed, hafter⟩ := h
  exact ⟨before, hbefore, hmissed, hafter.trans hrun⟩

theorem Sourced.advance (h : Sourced key s t) {progress : Progress υ ε}
    (hrun : Run key t (t.advance i progress)) (hprogress : ∀ value, progress ≠ .computed value) :
    Sourced key s (t.advance i progress) where
  computed j value hj := by
    by_cases hji : j = i
    · subst hji
      rw [advance_progress_self] at hj
      exact absurd hj (hprogress value)
    · rw [advance_progress_of_ne t i progress hji] at hj
      exact (h.computed j value hj).trans hrun
  stored k value hmem := by
    obtain ⟨j, hkey, hj⟩ := h.stored k value hmem
    exact ⟨j, hkey, hj.trans hrun⟩

theorem Sourced.compute (h : Sourced key s t) (hrun : Run key s t) (hi : t.progress i = .missed)
    (hstep : Run key t (t.advance i (.computed value))) :
    Sourced key s (t.advance i (.computed value)) where
  computed j other hj := by
    by_cases hji : j = i
    · subst hji
      rw [advance_progress_self] at hj
      obtain rfl := Progress.computed.inj hj
      exact ⟨t, hrun, hi, .refl⟩
    · rw [advance_progress_of_ne t i _ hji] at hj
      exact (h.computed j other hj).trans hstep
  stored k other hmem := by
    obtain ⟨j, hkey, hj⟩ := h.stored k other hmem
    exact ⟨j, hkey, hj.trans hstep⟩

theorem Sourced.offer (h : Sourced key s t) (hkey : key i = .ok k)
    (hi : t.progress i = .computed value) (hstep : Run key t (t.offer i k value)) :
    Sourced key s (t.offer i k value) where
  computed j other hj := by
    by_cases hji : j = i
    · subst hji
      rw [offer_progress_self] at hj
      cases hj
    · rw [offer_progress_of_ne t i k value hji] at hj
      exact (h.computed j other hj).trans hstep
  stored own other hmem := by
    rcases mem_entries_store hmem with hold | hnew
    · obtain ⟨j, hkeyj, hj⟩ := h.stored own other hold
      exact ⟨j, hkeyj, hj.trans hstep⟩
    · obtain ⟨rfl, rfl⟩ := Prod.mk.inj hnew
      exact ⟨i, hkey, (h.computed i other hi).trans hstep⟩

theorem Move.sourced (hmove : Move key i t u) (hrun : Run key s t) (h : Sourced key s t) :
    Sourced key s u := by
  have hstep : Run key t u := .single ⟨i, hmove⟩
  cases hmove with
  | refuse error hkey hi => exact h.advance hstep (by simp)
  | hit k value hkey hi hvalue => exact h.advance hstep (by simp)
  | miss k hkey hi hvalue => exact h.advance hstep (by simp)
  | compute result hi =>
    cases result with
    | error error => exact h.advance hstep (by simp [Progress.ofResult])
    | ok value => exact h.compute hrun hi hstep
  | store k value hkey hi => exact h.offer hkey hi hstep

theorem Run.sourced (hrun : Run key start s) : Sourced key start s := by
  induction hrun with
  | refl => exact ⟨fun _ _ hi => by simp [start] at hi, fun _ _ hmem => absurd hmem List.not_mem_nil⟩
  | tail hrun hmove ih =>
    obtain ⟨i, hmove⟩ := hmove
    exact hmove.sourced hrun ih

theorem Run.answersFrom {related : ι → ι → Prop} (hrun : Run key start s)
    (hkeys : ∀ i, ∃ k, key i = .ok k)
    (hrelated : ∀ i j k, key i = .ok k → key j = .ok k → related j i) :
    AnswersFrom key related s := by
  intro i value hi
  obtain ⟨k, hkey⟩ := hkeys i
  have hlookup : s.memo.lookup k = some value :=
    ((hrun.consistent (consistent_start key)).lookup_eq_some_iff k value).2 ⟨i, hkey, hi⟩
  obtain ⟨j, hkeyj, hj⟩ := hrun.sourced.stored k value (mem_entries_of_lookup hlookup)
  exact ⟨j, hj, hrelated i j k hkey hkeyj⟩

end Overlap
end TrackingScore.Memo
