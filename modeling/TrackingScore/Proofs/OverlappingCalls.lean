import Mathlib.Logic.Relation
import TrackingScore.Proofs.MemoHistory

/-!
Calls of a memo that overlap in time. To look a key up is one step of a call and to store a value
another; in between the function runs and other calls go on. Several calls may miss a key and compute
values of their own, but the value stored first is the one that all of them return.
-/

namespace TrackingScore.Memo

section store

variable {κ υ : Type} [DecidableEq κ] {memo later : Memo κ υ} {key : κ} {value old : υ}

theorem store_of_lookup_eq_some (value : υ) (h : memo.lookup key = some old) :
    memo.store key value = (old, memo) := by
  rw [store, h]

theorem entries_prefix_store (memo : Memo κ υ) (key : κ) (value : υ) :
    memo.entries <+: (memo.store key value).2.entries := by
  cases h : memo.lookup key with
  | some old => rw [store_of_lookup_eq_some value h]
  | none =>
    rw [store_of_lookup_eq_none value h]
    exact List.prefix_append _ _

theorem nodup_store (hkeys : (memo.entries.map Prod.fst).Nodup) (key : κ) (value : υ) :
    ((memo.store key value).2.entries.map Prod.fst).Nodup := by
  cases h : memo.lookup key with
  | some old => rwa [store_of_lookup_eq_some value h]
  | none =>
    rw [store_of_lookup_eq_none value h]
    exact nodup_keep (ε := Empty) hkeys h (.ok value)

theorem lookup_store (memo : Memo κ υ) (key : κ) (value : υ) (other : κ) :
    (memo.store key value).2.lookup other =
      (memo.lookup other).or (if other = key then some value else none) := by
  by_cases hother : other = key
  · subst hother
    cases h : memo.lookup other with
    | some old =>
      rw [store_of_lookup_eq_some value h, h]
      rfl
    | none =>
      rw [lookup_store_self, store_of_lookup_eq_none value h, if_pos rfl]
      rfl
  · rw [lookup_store_of_ne memo value hother, if_neg hother, Option.or_none]

theorem lookup_of_prefix (hentries : memo.entries <+: later.entries)
    (h : memo.lookup key = some value) : later.lookup key = some value := by
  obtain ⟨added, hadded⟩ := hentries
  obtain ⟨entry, hfind, rfl⟩ := Option.map_eq_some_iff.1 h
  rw [lookup, ← hadded, List.find?_append, hfind]
  rfl

theorem mem_keys_iff : key ∈ memo.entries.map Prod.fst ↔ ∃ value, memo.lookup key = some value := by
  rw [← Option.ne_none_iff_exists', ne_eq, lookup_eq_none_iff]
  simp

end store

inductive Progress (υ ε : Type) where
  | begun
  | missed
  | computed (value : υ)
  | returned (result : Except ε υ)
  deriving Repr, DecidableEq

def Progress.ofResult {υ ε : Type} : Except ε υ → Progress υ ε
  | .ok value => .computed value
  | .error error => .returned (.error error)

/-- A memo and the calls that use it, a caller that calls again counting as another call. -/
structure Overlap (ι κ υ ε : Type) where
  memo : Memo κ υ
  progress : ι → Progress υ ε
  offers : List (κ × υ)

namespace Overlap

variable {ι κ υ ε : Type}

def start : Overlap ι κ υ ε := ⟨empty, fun _ => .begun, []⟩

/-- The first value handed in for a key. -/
def firstOffer? [DecidableEq κ] (s : Overlap ι κ υ ε) (key : κ) : Option υ :=
  ((s.offers.filter fun offer => offer.1 = key).map (·.2)).head?

variable [DecidableEq ι]

def advance (s : Overlap ι κ υ ε) (i : ι) (progress : Progress υ ε) : Overlap ι κ υ ε :=
  { s with progress := Function.update s.progress i progress }

section advance

variable (s : Overlap ι κ υ ε) (i : ι) (progress : Progress υ ε)

@[simp] theorem advance_memo : (s.advance i progress).memo = s.memo := rfl

@[simp] theorem advance_progress_self : (s.advance i progress).progress i = progress :=
  Function.update_self _ _ _

theorem advance_progress_of_ne {j : ι} (h : j ≠ i) :
    (s.advance i progress).progress j = s.progress j :=
  Function.update_of_ne h _ _

end advance

variable [DecidableEq κ]

def offer (s : Overlap ι κ υ ε) (i : ι) (key : κ) (value : υ) : Overlap ι κ υ ε :=
  let (kept, memo) := s.memo.store key value
  { s.advance i (.returned (.ok kept)) with memo := memo, offers := s.offers ++ [(key, value)] }

section offer

variable (s : Overlap ι κ υ ε) (i : ι) (key : κ) (value : υ)

@[simp] theorem offer_memo : (s.offer i key value).memo = (s.memo.store key value).2 := rfl

@[simp] theorem offer_progress_self :
    (s.offer i key value).progress i = .returned (.ok (s.memo.store key value).1) :=
  s.advance_progress_self i _

theorem offer_progress_of_ne {j : ι} (h : j ≠ i) :
    (s.offer i key value).progress j = s.progress j :=
  s.advance_progress_of_ne i _ h

theorem firstOffer?_offer (other : κ) :
    (s.offer i key value).firstOffer? other =
      (s.firstOffer? other).or (if other = key then some value else none) := by
  have hoffers : (s.offer i key value).offers = s.offers ++ [(key, value)] := rfl
  rw [firstOffer?, hoffers, List.filter_append, List.map_append, List.head?_append]
  by_cases h : other = key
  · simp [firstOffer?, h]
  · simp [firstOffer?, h, Ne.symm h]

end offer

variable (key : ι → Except ε κ)

/-- The steps of one of the calls, each call having its key. Between two of its steps anything may
happen to the others. -/
inductive Move (i : ι) (s : Overlap ι κ υ ε) : Overlap ι κ υ ε → Prop where
  | refuse (error : ε) (hkey : key i = .error error) (hi : s.progress i = .begun) :
      Move i s (s.advance i (.returned (.error error)))
  | hit (k : κ) (value : υ) (hkey : key i = .ok k) (hi : s.progress i = .begun)
      (hvalue : s.memo.lookup k = some value) : Move i s (s.advance i (.returned (.ok value)))
  | miss (k : κ) (hkey : key i = .ok k) (hi : s.progress i = .begun)
      (hvalue : s.memo.lookup k = none) : Move i s (s.advance i .missed)
  | compute (result : Except ε υ) (hi : s.progress i = .missed) :
      Move i s (s.advance i (.ofResult result))
  | store (k : κ) (value : υ) (hkey : key i = .ok k) (hi : s.progress i = .computed value) :
      Move i s (s.offer i k value)

def Run : Overlap ι κ υ ε → Overlap ι κ υ ε → Prop :=
  Relation.ReflTransGen fun s t => ∃ i, Move key i s t

/-- What holds of a memo while calls overlap: it has what was handed in first for each key, no key
twice, and a value exactly if a call returned it. -/
structure Consistent (s : Overlap ι κ υ ε) : Prop where
  lookup_eq : ∀ k, s.memo.lookup k = s.firstOffer? k
  nodup : (s.memo.entries.map Prod.fst).Nodup
  lookup_eq_some_iff : ∀ k value, s.memo.lookup k = some value ↔
    ∃ i, key i = .ok k ∧ s.progress i = .returned (.ok value)

omit [DecidableEq ι] in
theorem consistent_start : Consistent key (start : Overlap ι κ υ ε) where
  lookup_eq _ := rfl
  nodup := List.nodup_nil
  lookup_eq_some_iff _ _ := by simp [start, lookup_empty]

variable {key} {s t u : Overlap ι κ υ ε} {i j : ι} {k : κ} {value : υ}

theorem Consistent.advance (h : Consistent key s) {progress : Progress υ ε}
    (hi : ∀ value, s.progress i ≠ .returned (.ok value))
    (hprogress : ∀ k value, key i = .ok k → progress = .returned (.ok value) →
      s.memo.lookup k = some value) : Consistent key (s.advance i progress) where
  lookup_eq := h.lookup_eq
  nodup := h.nodup
  lookup_eq_some_iff k value := by
    rw [advance_memo, h.lookup_eq_some_iff]
    constructor
    · rintro ⟨j, hkey, hj⟩
      have hji : j ≠ i := fun heq => hi value (heq ▸ hj)
      exact ⟨j, hkey, (s.advance_progress_of_ne i progress hji).trans hj⟩
    · rintro ⟨j, hkey, hj⟩
      by_cases hji : j = i
      · subst hji
        rw [advance_progress_self] at hj
        exact (h.lookup_eq_some_iff k value).1 (hprogress k value hkey hj)
      · rw [advance_progress_of_ne s i progress hji] at hj
        exact ⟨j, hkey, hj⟩

theorem Consistent.offer (h : Consistent key s) (hkey : key i = .ok k)
    (hi : s.progress i = .computed value) : Consistent key (s.offer i k value) where
  lookup_eq other := by
    rw [offer_memo, lookup_store, firstOffer?_offer, h.lookup_eq]
  nodup := nodup_store h.nodup k value
  lookup_eq_some_iff other answer := by
    rw [offer_memo]
    constructor
    · intro hlookup
      cases hold : s.memo.lookup other with
      | some old =>
        obtain ⟨j, hkeyj, hj⟩ := (h.lookup_eq_some_iff other old).1 hold
        have hji : j ≠ i := by
          rintro rfl
          cases hi.symm.trans hj
        rw [lookup_store, hold, Option.some_or] at hlookup
        obtain rfl := Option.some.inj hlookup
        exact ⟨j, hkeyj, (s.offer_progress_of_ne i k value hji).trans hj⟩
      | none =>
        -- only the key of the call itself can be new
        rw [lookup_store, hold, Option.none_or] at hlookup
        obtain ⟨rfl, rfl⟩ : other = k ∧ value = answer := by simpa using hlookup
        exact ⟨i, hkey, by rw [offer_progress_self, store_of_lookup_eq_none value hold]⟩
    · rintro ⟨j, hkeyj, hj⟩
      by_cases hji : j = i
      · subst hji
        obtain rfl : k = other := Except.ok.inj (hkey.symm.trans hkeyj)
        rw [offer_progress_self] at hj
        rw [lookup_store_self]
        exact congrArg some (Except.ok.inj (Progress.returned.inj hj))
      · rw [offer_progress_of_ne s i k value hji] at hj
        rw [lookup_store, (h.lookup_eq_some_iff other answer).2 ⟨j, hkeyj, hj⟩, Option.some_or]

theorem Move.consistent (hmove : Move key i s t) (h : Consistent key s) : Consistent key t := by
  cases hmove with
  | refuse error hkey hi => exact h.advance (by simp [hi]) (by simp)
  | hit k value hkey hi hvalue =>
    refine h.advance (by simp [hi]) fun other answer hother hprogress => ?_
    obtain rfl := Except.ok.inj (hkey.symm.trans hother)
    obtain rfl := Except.ok.inj (Progress.returned.inj hprogress)
    exact hvalue
  | miss k hkey hi hvalue => exact h.advance (by simp [hi]) (by simp)
  | compute result hi => exact h.advance (by simp [hi]) (by cases result <;> simp [Progress.ofResult])
  | store k value hkey hi => exact h.offer hkey hi

theorem Run.consistent (hrun : Run key s t) (h : Consistent key s) : Consistent key t := by
  induction hrun with
  | refl => exact h
  | tail _ hmove ih =>
    obtain ⟨i, hmove⟩ := hmove
    exact hmove.consistent ih

theorem Move.entries_prefix (hmove : Move key i s t) : s.memo.entries <+: t.memo.entries := by
  cases hmove with
  | store k value hkey hi => exact entries_prefix_store s.memo k value
  | _ => exact List.prefix_rfl

theorem Run.entries_prefix (hrun : Run key s t) : s.memo.entries <+: t.memo.entries := by
  induction hrun with
  | refl => exact List.prefix_rfl
  | tail _ hmove ih =>
    obtain ⟨i, hmove⟩ := hmove
    exact ih.trans hmove.entries_prefix

theorem Move.progress_of_ne (hmove : Move key i s t) (h : j ≠ i) : t.progress j = s.progress j := by
  cases hmove with
  | store k value hkey hi => exact s.offer_progress_of_ne i k value h
  | _ => exact s.advance_progress_of_ne i _ h

/-- A call as the program makes it, if its function gives a result and the memo becomes another while
the function runs. -/
def answer (key : ι → Except ε κ) (i : ι) (computed : Except ε υ) (between before : Memo κ υ) :
    Except ε υ × Memo κ υ :=
  (tryCall key (fun _ => ExceptT.mk fun _ => (computed, between)) i :
    ExceptT ε (StateM (Memo κ υ)) υ).run.run before

section answer

variable {before between : Memo κ υ} {computed : Except ε υ} {error : ε}

omit [DecidableEq ι]

theorem answer_of_error (hkey : key i = .error error) :
    answer key i computed between before = (.error error, before) :=
  tryCall_run_of_error hkey

theorem answer_of_hit (hkey : key i = .ok k) (hvalue : before.lookup k = some value) :
    answer key i computed between before = (.ok value, before) := by
  rw [answer, tryCall_run_of_ok hkey, hvalue]
  rfl

theorem answer_of_failure (hkey : key i = .ok k) (hvalue : before.lookup k = none) :
    answer key i (.error error) between before = (.error error, between) := by
  rw [answer, tryCall_run_of_ok hkey, hvalue]
  rfl

theorem answer_of_miss (hkey : key i = .ok k) (hvalue : before.lookup k = none) :
    answer key i (.ok value) between before =
      (.ok (between.store k value).1, (between.store k value).2) := by
  rw [answer, tryCall_run_of_ok hkey, hvalue]
  rfl

theorem answer_eq_call {keyOf : ι → κ} (hkey : key i = .ok (keyOf i)) (value : υ)
    (between before : Memo κ υ) :
    answer key i (.ok value) between before =
      ((call keyOf (fun _ _ => (value, between)) i : StateM (Memo κ υ) υ).run before).map .ok id := by
  cases hvalue : before.lookup (keyOf i) with
  | some old =>
    rw [answer_of_hit hkey hvalue, call_run, hvalue]
    rfl
  | none =>
    rw [answer_of_miss hkey hvalue, call_run, hvalue]
    rfl

end answer

/-- In a run from `s` to `t` a call looked its key up in vain and did not return yet. -/
def Missed (key : ι → Except ε κ) (s t : Overlap ι κ υ ε) (i : ι) : Prop :=
  ∃ before k, Run key s before ∧ before.progress i = .begun ∧ Run key before t ∧ key i = .ok k ∧
    before.memo.lookup k = none

/-- In a run from `s` to `t` a call did what the program does, with all that other calls did
meanwhile as the work of its function. -/
def Returned (key : ι → Except ε κ) (s t : Overlap ι κ υ ε) (i : ι) (result : Except ε υ) : Prop :=
  ∃ before between after computed, Run key s before ∧ before.progress i = .begun ∧
    Run key before between ∧ Move key i between after ∧ after.progress i = .returned result ∧
    Run key after t ∧ answer key i computed between.memo before.memo = (result, after.memo)

def Account (key : ι → Except ε κ) (s t : Overlap ι κ υ ε) (i : ι) : Progress υ ε → Prop
  | .begun => True
  | .missed => Missed key s t i
  | .computed _ => Missed key s t i
  | .returned result => Returned key s t i result

theorem Account.trans {progress : Progress υ ε} (h : Account key s t i progress)
    (hrun : Run key t u) : Account key s u i progress := by
  have hmissed : Missed key s t i → Missed key s u i := by
    rintro ⟨before, k, hbefore, hi, ht, hkey, hvalue⟩
    exact ⟨before, k, hbefore, hi, ht.trans hrun, hkey, hvalue⟩
  cases progress with
  | begun => trivial
  | missed => exact hmissed h
  | computed value => exact hmissed h
  | returned result =>
    obtain ⟨before, between, after, computed, hbefore, hi, hbetween, hmove, hafter, ht, hanswer⟩ := h
    exact ⟨before, between, after, computed, hbefore, hi, hbetween, hmove, hafter, ht.trans hrun,
      hanswer⟩

theorem Move.account (hmove : Move key i t u) (hrun : Run key s t)
    (h : Account key s t i (t.progress i)) : Account key s u i (u.progress i) := by
  have hstep : Run key t u := .single ⟨i, hmove⟩
  cases hmove with
  | refuse error hkey hi =>
    rw [advance_progress_self]
    exact ⟨t, t, _, .error error, hrun, hi, .refl, .refuse error hkey hi, advance_progress_self _ _ _,
      .refl, answer_of_error hkey⟩
  | hit k value hkey hi hvalue =>
    rw [advance_progress_self]
    exact ⟨t, t, _, .ok value, hrun, hi, .refl, .hit k value hkey hi hvalue,
      advance_progress_self _ _ _, .refl, answer_of_hit hkey hvalue⟩
  | miss k hkey hi hvalue =>
    rw [advance_progress_self]
    exact ⟨t, k, hrun, hi, hstep, hkey, hvalue⟩
  | compute result hi =>
    rw [hi] at h
    rw [advance_progress_self]
    cases result with
    | ok value => exact Account.trans h hstep
    | error error =>
      obtain ⟨before, k, hbefore, hbegun, hbetween, hkey, hvalue⟩ := h
      exact ⟨before, t, _, .error error, hbefore, hbegun, hbetween, .compute (.error error) hi,
        advance_progress_self _ _ _, .refl, answer_of_failure hkey hvalue⟩
  | store k value hkey hi =>
    rw [hi] at h
    rw [offer_progress_self]
    obtain ⟨before, other, hbefore, hbegun, hbetween, hother, hvalue⟩ := h
    obtain rfl := Except.ok.inj (hkey.symm.trans hother)
    exact ⟨before, t, _, .ok value, hbefore, hbegun, hbetween, .store k value hkey hi,
      offer_progress_self _ _ _ _, .refl, answer_of_miss hkey hvalue⟩

theorem Run.account (hrun : Run key s t) (hi : s.progress i = .begun) :
    Account key s t i (t.progress i) := by
  induction hrun with
  | refl =>
    rw [hi]
    trivial
  | tail hrun hmove ih =>
    obtain ⟨j, hmove⟩ := hmove
    by_cases hj : i = j
    · subst hj
      exact hmove.account hrun ih
    · rw [hmove.progress_of_ne hj]
      exact ih.trans (.single ⟨j, hmove⟩)

/-- However calls overlap, all that return a value for a key return one, the first that was stored for
it. An entry stays as it is once it is there, a key has an entry, and then a single one, exactly if
some call returned a value for it, and each call answered as the program does. -/
theorem returned_eq_firstOffer (key : ι → Except ε κ) (s : Overlap ι κ υ ε)
    (hrun : Run key start s) :
    (∀ i k value, key i = .ok k → s.progress i = .returned (.ok value) →
        s.firstOffer? k = some value) ∧
      (∀ i j k value other, key i = .ok k → key j = .ok k →
        s.progress i = .returned (.ok value) → s.progress j = .returned (.ok other) →
        value = other) ∧
      (∀ t, Run key s t → s.memo.entries <+: t.memo.entries ∧
        ∀ k value, s.memo.lookup k = some value → t.memo.lookup k = some value) ∧
      ((s.memo.entries.map Prod.fst).Nodup ∧ ∀ k, k ∈ s.memo.entries.map Prod.fst ↔
        ∃ i value, key i = .ok k ∧ s.progress i = .returned (.ok value)) ∧
      ∀ i result, s.progress i = .returned result → Returned key start s i result := by
  have h := hrun.consistent (consistent_start key)
  have hfirst : ∀ i k value, key i = .ok k → s.progress i = .returned (.ok value) →
      s.firstOffer? k = some value := fun i k value hkey hi =>
    (h.lookup_eq k).symm.trans ((h.lookup_eq_some_iff k value).2 ⟨i, hkey, hi⟩)
  refine ⟨hfirst, fun i j k value other hi hj hvalue hother => ?_, fun t ht => ?_, ⟨h.nodup, fun k => ?_⟩,
    fun i result hi => ?_⟩
  · exact Option.some.inj ((hfirst i k value hi hvalue).symm.trans (hfirst j k other hj hother))
  · exact ⟨ht.entries_prefix, fun k value => lookup_of_prefix ht.entries_prefix⟩
  · rw [mem_keys_iff, exists_comm]
    exact exists_congr fun value => h.lookup_eq_some_iff k value
  · have haccount := hrun.account (i := i) rfl
    rwa [hi] at haccount

def race : Overlap (Fin 3) Nat Nat String :=
  (((start.advance 0 .missed).advance 1 .missed |>.advance 0 (.ofResult (.ok 1))
    |>.advance 1 (.ofResult (.ok 2))).offer 1 7 2 |>.advance 2 (.returned (.ok 2))).offer 0 7 1

theorem returned_eq_firstOffer_race :
    Run (fun _ => .ok 7) start race ∧ race.progress 0 = .returned (.ok 2) ∧
      race.firstOffer? 7 = some 2 ∧ (race.memo.entries.map Prod.fst).Nodup := by
  have hrun : Run (fun _ => .ok 7) start race :=
    .tail (.tail (.tail (.tail (.tail (.tail (.tail .refl ⟨0, .miss 7 rfl rfl rfl⟩)
      ⟨1, .miss 7 rfl rfl rfl⟩) ⟨0, .compute (.ok 1) rfl⟩) ⟨1, .compute (.ok 2) rfl⟩)
      ⟨1, .store 7 2 rfl rfl⟩) ⟨2, .hit 7 2 rfl rfl rfl⟩) ⟨0, .store 7 1 rfl rfl⟩
  obtain ⟨hfirst, _, _, ⟨hnodup, _⟩, _⟩ := returned_eq_firstOffer (fun _ => .ok 7) race hrun
  exact ⟨hrun, rfl, hfirst 0 7 2 rfl rfl, hnodup⟩

end Overlap

end TrackingScore.Memo
