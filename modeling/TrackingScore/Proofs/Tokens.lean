import Mathlib.Data.List.DropRight
import TrackingScore.Text.Blank

/-!
Texts between white space. A text with no white space at its ends is trimmed already, and tokens
written with white space between them are read back as the same tokens.
-/

namespace TrackingScore.Text

def Solid (cs : List Char) : Prop := ∀ c ∈ cs, isBlank c = false

instance : DecidablePred Solid := fun cs =>
  decidable_of_iff (cs.all (fun c => !isBlank c) = true) (by simp [Solid])

theorem Solid.trimStart_eq {cs : List Char} (h : Solid cs) : trimStart cs = cs :=
  List.dropWhile_eq_self_iff.2 fun _ => by simp [h _ (List.getElem_mem _)]

theorem Solid.trimEnd_eq {cs : List Char} (h : Solid cs) : trimEnd cs = cs :=
  List.rdropWhile_eq_self_iff.2 fun hne => by simp [h _ (List.getLast_mem hne)]

theorem trim_of_solid {cs : List Char} (h : Solid cs) : trim cs = cs := by
  rw [trim, h.trimStart_eq, h.trimEnd_eq]

theorem trim_cons {c : Char} (cs : List Char) (h : isBlank c = false) :
    ∃ rest, trim (c :: cs) = c :: rest := by
  have hstart : trimStart (c :: cs) = c :: cs := List.dropWhile_cons_of_neg (by simp [h])
  have hne : trimEnd (c :: cs) ≠ [] := fun hnil => by
    have hblank := List.rdropWhile_eq_nil_iff.1 hnil c (by simp)
    simp [h] at hblank
  rw [trim, hstart]
  obtain ⟨d, rest, hrest⟩ := List.exists_cons_of_ne_nil hne
  obtain ⟨more, hmore⟩ := List.rdropWhile_prefix isBlank (l := c :: cs)
  change trimEnd (c :: cs) ++ more = c :: cs at hmore
  rw [hrest, List.cons_append] at hmore
  exact ⟨rest, by rw [hrest, (List.cons.inj hmore).1]⟩

theorem foldr_addToTokens {token : List Char} (h : Solid token)
    (rest : List Char × List (List Char)) :
    token.foldr addToTokens rest = (token ++ rest.1, rest.2) := by
  induction token with
  | nil => rfl
  | cons c token ih =>
    rw [List.foldr_cons, ih fun d hd => h d (by simp [hd])]
    simp [addToTokens, h c (by simp)]

theorem tokens_of_solid {token : List Char} (h : Solid token) (hne : token ≠ []) :
    tokens token = [token] := by
  simp [tokens, foldr_addToTokens h, hne]

theorem tokens_append_cons {token : List Char} {blank : Char} (rest : List Char)
    (h : Solid token) (hne : token ≠ []) (hblank : isBlank blank = true) :
    tokens (token ++ blank :: rest) = token :: tokens rest := by
  rw [tokens, List.foldr_append, List.foldr_cons, foldr_addToTokens h]
  simp [addToTokens, hblank, hne, tokens]

theorem tokens_blank_cons {c : Char} (cs : List Char) (h : isBlank c = true) :
    tokens (c :: cs) = tokens cs := by
  simp [tokens, addToTokens, h]

theorem tokens_blank_append {gap : List Char} (cs : List Char)
    (h : ∀ c ∈ gap, isBlank c = true) : tokens (gap ++ cs) = tokens cs := by
  induction gap with
  | nil => rfl
  | cons c gap ih =>
    rw [List.cons_append, tokens_blank_cons _ (h c (by simp)), ih fun d hd => h d (by simp [hd])]

theorem tokens_append_blank {gap : List Char} (cs : List Char)
    (h : ∀ c ∈ gap, isBlank c = true) : tokens (cs ++ gap) = tokens cs := by
  have hgap : gap.foldr addToTokens ([], []) = ([], []) := by
    induction gap with
    | nil => rfl
    | cons c gap ih =>
      rw [List.foldr_cons, ih fun d hd => h d (by simp [hd])]
      simp [addToTokens, h c (by simp)]
  rw [tokens, List.foldr_append, hgap]
  rfl

theorem exists_trim (cs : List Char) :
    ∃ front back, cs = front ++ trim cs ++ back ∧ (∀ c ∈ front, isBlank c = true) ∧
      ∀ c ∈ back, isBlank c = true := by
  refine ⟨cs.takeWhile isBlank, (trimStart cs).rtakeWhile isBlank, ?_,
    fun _ hc => List.mem_takeWhile_imp hc, fun _ hc => List.mem_rtakeWhile_imp hc⟩
  change cs = _ ++ (trimStart cs).rdropWhile isBlank ++ _
  rw [List.append_assoc, List.rdropWhile_append_rtakeWhile]
  exact List.takeWhile_append_dropWhile.symm

theorem tokens_trim (cs : List Char) : tokens (trim cs) = tokens cs := by
  obtain ⟨front, back, hcs, hfront, hback⟩ := exists_trim cs
  conv_rhs => rw [hcs]
  rw [tokens_append_blank _ hback, tokens_blank_append _ hfront]

theorem trim_blank_cons {c : Char} (cs : List Char) (h : isBlank c = true) :
    trim (c :: cs) = trim cs := by
  rw [trim, trimStart, List.dropWhile_cons_of_pos h]
  rfl

theorem isBlank_of_trimStart_cons {c : Char} {rest : List Char}
    (h : trimStart (c :: rest) = c :: rest) : isBlank c = false := by
  have hc : ¬isBlank c = true := List.dropWhile_eq_self_iff.1 h (Nat.succ_pos _)
  simpa using hc

theorem trimStart_trim (cs : List Char) : trimStart (trim cs) = trim cs := by
  have hself : trimStart (trimStart cs) = trimStart cs := List.dropWhile_idempotent isBlank cs
  rcases hstart : trimStart cs with _ | ⟨c, rest⟩
  · rw [trim, hstart]
    rfl
  · rw [hstart] at hself
    have hc := isBlank_of_trimStart_cons hself
    obtain ⟨more, hmore⟩ := trim_cons rest hc
    rw [trim, hself] at hmore
    rw [trim, hstart, hmore]
    exact List.dropWhile_cons_of_neg (by simp [hc])

theorem trim_trim (cs : List Char) : trim (trim cs) = trim cs := by
  rw [trim, trimStart_trim]
  exact List.rdropWhile_idempotent _ _

theorem tokens_of_trim_eq_cons {cs rest : List Char} {c : Char} (h : trim cs = c :: rest) :
    ∃ token others, tokens cs = (c :: token) :: others := by
  have hc : isBlank c = false := isBlank_of_trimStart_cons (h ▸ trimStart_trim cs)
  rw [← tokens_trim, h]
  exact ⟨(rest.foldr addToTokens ([], [])).1, (rest.foldr addToTokens ([], [])).2, by
    simp [tokens, addToTokens, hc]⟩

theorem tokens_intercalate {items : List (List Char)} (h : ∀ item ∈ items, Solid item ∧ item ≠ []) :
    tokens (List.intercalate [' '] items) = items := by
  induction items with
  | nil => rfl
  | cons item items ih =>
    obtain ⟨hsolid, hne⟩ := h item (by simp)
    rcases items with _ | ⟨next, items⟩
    · rw [List.intercalate_singleton, tokens_of_solid hsolid hne]
    · rw [List.intercalate_cons_cons, List.append_assoc, List.singleton_append,
        tokens_append_cons _ hsolid hne (by decide), ih fun item hitem => h item (by simp [hitem])]

theorem not_mem_intercalate {σ : Type} {c : σ} {separator : List σ} {items : List (List σ)}
    (hc : c ∉ separator) (h : ∀ item ∈ items, c ∉ item) : c ∉ separator.intercalate items := by
  induction items with
  | nil => simp
  | cons item items ih =>
    have ih := ih fun other hother => h other (List.mem_cons_of_mem _ hother)
    rcases items with _ | ⟨next, items⟩
    · simpa using h
    · rw [List.intercalate_cons_cons]
      simp [h item (by simp), hc, ih]

/-! ## Spelled tokens -/

/-- A text that spells tokens: white space between them, and maybe in front of and behind them. -/
inductive Spaced : List (List Char) → List Char → Prop
  | nil {gap : List Char} (hgap : ∀ c ∈ gap, isBlank c = true) : Spaced [] gap
  | cons {gap token rest : List Char} {tokens : List (List Char)}
      (hgap : ∀ c ∈ gap, isBlank c = true) (hsolid : Solid token) (hne : token ≠ [])
      (hend : ∀ c ∈ rest.head?, isBlank c = true) (h : Spaced tokens rest) :
      Spaced (token :: tokens) (gap ++ (token ++ rest))

theorem Spaced.tokens_eq {items : List (List Char)} {text : List Char} (h : Spaced items text) :
    tokens text = items := by
  induction h with
  | nil hgap => exact tokens_append_blank [] hgap
  | @cons gap token rest items hgap hsolid hne hend h ih =>
    rw [tokens_blank_append _ hgap]
    rcases rest with _ | ⟨c, rest⟩
    · rw [List.append_nil, tokens_of_solid hsolid hne, ← ih]
      rfl
    · have hc : isBlank c = true := hend c rfl
      rw [tokens_append_cons rest hsolid hne hc, ← ih, tokens_blank_cons rest hc]

theorem Spaced.blank_cons {items : List (List Char)} {text : List Char} {c : Char}
    (h : Spaced items text) (hc : isBlank c = true) : Spaced items (c :: text) := by
  cases h with
  | nil hgap => exact .nil (List.forall_mem_cons.2 ⟨hc, hgap⟩)
  | cons hgap hsolid hne hend h =>
    exact .cons (List.forall_mem_cons.2 ⟨hc, hgap⟩) hsolid hne hend h

theorem exists_spaced (text : List Char) : ∃ items, Spaced items text := by
  induction text with
  | nil => exact ⟨[], .nil (by simp)⟩
  | cons c text ih =>
    obtain ⟨items, h⟩ := ih
    by_cases hc : isBlank c = true
    · exact ⟨items, h.blank_cons hc⟩
    have hsingle : Solid [c] := by simpa [Solid] using hc
    by_cases hend : ∀ d ∈ text.head?, isBlank d = true
    · exact ⟨[c] :: items, .cons (List.forall_mem_nil _) hsingle (by simp) hend h⟩
    -- The first token goes on: there is no white space in front of it.
    cases h with
    | @nil gap hgap => exact absurd (fun d hd => hgap d (List.mem_of_mem_head? hd)) hend
    | @cons gap token rest items hgap hsolid hne hend' h =>
      rcases gap with _ | ⟨d, gap⟩
      · refine ⟨(c :: token) :: items, .cons (List.forall_mem_nil _) ?_ (by simp) hend' h⟩
        exact List.forall_mem_cons.2 ⟨by simpa using hc, hsolid⟩
      · refine absurd (fun e he => hgap e ?_) hend
        rw [List.cons_append, List.head?_cons, Option.mem_some_iff] at he
        exact he ▸ List.mem_cons_self

/-- The tokens of a text are those it spells, and it spells no others. -/
theorem tokens_eq_iff {items : List (List Char)} {text : List Char} :
    tokens text = items ↔ Spaced items text := by
  refine ⟨?_, Spaced.tokens_eq⟩
  rintro rfl
  obtain ⟨items, h⟩ := exists_spaced text
  rwa [h.tokens_eq]

theorem trim_blank_append {gap : List Char} (cs : List Char)
    (h : ∀ c ∈ gap, isBlank c = true) : trim (gap ++ cs) = trim cs := by
  induction gap with
  | nil => rfl
  | cons c gap ih =>
    rw [List.cons_append, trim_blank_cons _ (h c (by simp)), ih fun d hd => h d (by simp [hd])]

end TrackingScore.Text
