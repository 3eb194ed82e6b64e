import Mathlib.Data.List.Forall2

/-!
Lists of computations that may fail, run in order. The whole succeeds when each one does, and
otherwise it fails as the first failing one does.
-/

namespace TrackingScore

variable {ε β γ : Type}

theorem bind_eq_ok_iff {x : Except ε β} {f : β → Except ε γ} {result : γ} :
    x >>= f = .ok result ↔ ∃ b, x = .ok b ∧ f b = .ok result := by
  cases x <;> simp [bind, Except.bind]

theorem bind_eq_error_iff {x : Except ε β} {f : β → Except ε γ} {error : ε} :
    x >>= f = .error error ↔ x = .error error ∨ ∃ b, x = .ok b ∧ f b = .error error := by
  cases x <;> simp [bind, Except.bind]

theorem bind_map {δ : Type} (x : Except ε β) (f : β → Except ε γ) (g : γ → δ) :
    (x >>= f).map g = x >>= fun b => (f b).map g := by
  cases x <;> rfl

theorem map_eq_ok_iff {x : Except ε β} {f : β → γ} {result : γ} :
    x.map f = .ok result ↔ ∃ b, x = .ok b ∧ f b = result := by
  cases x <;> simp [Except.map]

theorem map_eq_error_iff {x : Except ε β} {f : β → γ} {error : ε} :
    x.map f = .error error ↔ x = .error error := by
  cases x <;> simp [Except.map]

variable {f : β → Except ε γ} {items : List β}

theorem mapM_eq_ok_iff {results : List γ} :
    items.mapM f = .ok results ↔
      List.Forall₂ (fun item result => f item = .ok result) items results := by
  induction items generalizing results with
  | nil =>
    simp only [List.mapM_nil, List.forall₂_nil_left_iff]
    exact ⟨fun h => (Except.ok.inj h).symm, fun h => h ▸ rfl⟩
  | cons item items ih =>
    simp only [List.mapM_cons, bind_eq_ok_iff, ih, List.forall₂_cons_left_iff]
    constructor
    · rintro ⟨first, hfirst, rest, hrest, hresults⟩
      exact ⟨first, rest, hfirst, hrest, (Except.ok.inj hresults).symm⟩
    · rintro ⟨first, rest, hfirst, hrest, rfl⟩
      exact ⟨first, hfirst, rest, hrest, rfl⟩

theorem mapM_eq_mapM {δ : Type} {g : δ → Except ε γ} {others : List δ}
    (h : List.Forall₂ (fun item other => f item = g other) items others) :
    items.mapM f = others.mapM g := by
  induction h with
  | nil => rfl
  | cons hfirst _ ih => rw [List.mapM_cons, List.mapM_cons, hfirst, ih]

/-- Two computations that both succeed, with results in a relation, or both fail, with errors in
another one. -/
inductive Corresponds {ε' γ' : Type} (errors : ε → ε' → Prop) (results : γ → γ' → Prop) :
    Except ε γ → Except ε' γ' → Prop
  | ok {result other} (h : results result other) :
      Corresponds errors results (.ok result) (.ok other)
  | error {error other} (h : errors error other) :
      Corresponds errors results (.error error) (.error other)

namespace Corresponds

variable {ε' δ γ' : Type} {errors : ε → ε' → Prop} {results : γ → γ' → Prop} {g : δ → Except ε' γ'}

theorem bind {inputs : β → δ → Prop} {x : Except ε β} {y : Except ε' δ}
    (hx : Corresponds errors inputs x y)
    (h : ∀ b c, inputs b c → Corresponds errors results (f b) (g c)) :
    Corresponds errors results (x >>= f) (y >>= g) := by
  cases hx with
  | ok hinputs => exact h _ _ hinputs
  | error herrors => exact .error herrors

theorem exists_eq_error {error : ε} {y : Except ε' γ'}
    (h : Corresponds errors results (.error error) y) :
    ∃ other, errors error other ∧ y = .error other := by
  cases h with
  | error herrors => exact ⟨_, herrors, rfl⟩

theorem exists_eq_ok {result : γ} {y : Except ε' γ'}
    (h : Corresponds errors results (.ok result) y) :
    ∃ other, y = .ok other ∧ results result other := by
  cases h with
  | ok hresults => exact ⟨_, rfl, hresults⟩

theorem map {β' : Type} {inputs : β → β' → Prop} {f : β → γ} {g : β' → γ'} {x : Except ε β}
    {y : Except ε' β'} (hx : Corresponds errors inputs x y)
    (h : ∀ b c, inputs b c → results (f b) (g c)) :
    Corresponds errors results (x.map f) (y.map g) := by
  cases hx with
  | ok hinputs => exact .ok (h _ _ hinputs)
  | error herrors => exact .error herrors

theorem of_map {β' : Type} {f : β → γ} {g : β' → γ'} {x : Except ε β} {y : Except ε' β'}
    (h : Corresponds errors results (x.map f) (y.map g)) :
    Corresponds errors (fun b c => results (f b) (g c)) x y := by
  rcases x with error | b <;> rcases y with other | c <;> cases h
  · rename_i herrors
    exact .error herrors
  · rename_i hresults
    exact .ok hresults

theorem mapM {others : List δ}
    (h : List.Forall₂ (fun item other => Corresponds errors results (f item) (g other))
      items others) :
    Corresponds errors (List.Forall₂ results) (items.mapM f) (others.mapM g) := by
  induction h with
  | nil => exact .ok .nil
  | cons hfirst _ ih =>
    rw [List.mapM_cons, List.mapM_cons]
    exact hfirst.bind fun _ _ hresult => ih.bind fun _ _ hresults => .ok (.cons hresult hresults)

theorem refl {errors : ε → ε → Prop} (h : ∀ error, errors error error) (x : Except ε γ) :
    Corresponds errors Eq x x := by
  cases x with
  | ok result => exact .ok rfl
  | error error => exact .error (h error)

theorem bind_eq {g : β → Except ε' γ'} {x : Except ε β} {y : Except ε' β}
    (hx : Corresponds errors Eq x y) (h : ∀ b, Corresponds errors results (f b) (g b)) :
    Corresponds errors results (x >>= f) (y >>= g) :=
  hx.bind fun b _ heq => heq ▸ h b

end Corresponds

theorem exists_mapM_eq_ok (h : ∀ item ∈ items, ∃ result, f item = .ok result) :
    ∃ results, items.mapM f = .ok results := by
  induction items with
  | nil => exact ⟨[], rfl⟩
  | cons item items ih =>
    obtain ⟨⟨result, hresult⟩, hitems⟩ := List.forall_mem_cons.1 h
    obtain ⟨results, hresults⟩ := ih hitems
    refine ⟨result :: results, ?_⟩
    rw [List.mapM_cons, hresult, hresults]
    rfl

theorem mapM_append_cons_of_error {before after : List β} {item : β} {error : ε}
    (hbefore : ∀ b ∈ before, ∃ result, f b = .ok result) (hitem : f item = .error error) :
    (before ++ item :: after).mapM f = .error error := by
  obtain ⟨results, hresults⟩ := exists_mapM_eq_ok hbefore
  rw [List.mapM_append, List.mapM_cons, hresults, hitem]
  rfl

theorem map_eq_map_of_mapM {δ : Type} {p : β → δ} {q : γ → δ} {results : List γ}
    (hf : ∀ item result, f item = .ok result → q result = p item)
    (h : items.mapM f = .ok results) : results.map q = items.map p := by
  have hresults := mapM_eq_ok_iff.1 h
  clear h
  induction hresults with
  | nil => rfl
  | cons hresult _ ih => rw [List.map_cons, List.map_cons, hf _ _ hresult, ih]

theorem exists_of_mem_mapM {results : List γ} {result : γ} (h : items.mapM f = .ok results)
    (hmem : result ∈ results) : ∃ item ∈ items, f item = .ok result := by
  obtain ⟨hlength, hresults⟩ := List.forall₂_iff_get.1 (mapM_eq_ok_iff.1 h)
  obtain ⟨i, hi, rfl⟩ := List.getElem_of_mem hmem
  exact ⟨_, List.get_mem items ⟨i, hlength ▸ hi⟩, hresults i (hlength ▸ hi) hi⟩

theorem mapM_eq_error_iff {error : ε} :
    items.mapM f = .error error ↔
      ∃ i, ∃ h : i < items.length, f items[i] = .error error ∧
        ∀ j (hj : j < i), ∃ result, f items[j] = .ok result := by
  induction items with
  | nil => simp [pure, Except.pure]
  | cons item items ih =>
    simp only [List.mapM_cons, bind_eq_error_iff, ih]
    constructor
    · rintro (hitem | ⟨first, hfirst, ⟨i, hi, hfail, hbefore⟩ | ⟨rest, _, hrest⟩⟩)
      · exact ⟨0, by simp, by simpa using hitem, by simp⟩
      · refine ⟨i + 1, by simpa using hi, by simpa using hfail, fun j hj => ?_⟩
        cases j with
        | zero => exact ⟨first, by simpa using hfirst⟩
        | succ j => simpa using hbefore j (by omega)
      · cases hrest
    · rintro ⟨i, hi, hfail, hbefore⟩
      cases i with
      | zero => exact .inl (by simpa using hfail)
      | succ i =>
        obtain ⟨first, hfirst⟩ := hbefore 0 (by omega)
        refine .inr ⟨first, by simpa using hfirst, .inl ⟨i, by simpa using hi, by simpa using hfail,
          fun j hj => ?_⟩⟩
        simpa using hbefore (j + 1) (by omega)

end TrackingScore
