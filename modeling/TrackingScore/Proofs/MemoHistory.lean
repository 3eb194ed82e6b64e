import Mathlib.Data.Finset.Card
import TrackingScore.Memo

/-!
The history of a memo. What a memo answers is told by the requests made of it and by what its function
gave when it ran, without a look at the entries: a key computed since the last clearing is answered
with its value and the function does not run, any other key makes it run once, and failures leave no
trace. The function has a state of its own, so it need not give the same result twice.
-/

namespace TrackingScore.Memo

section opening

variable {A κ υ ε β γ : Type} {m : Type → Type} [Monad m] [LawfulMonad m] {memo : Memo κ υ}

theorem bind_run_of_ok {x : ExceptT ε (StateT (Memo κ υ) m) β}
    {rest : β → ExceptT ε (StateT (Memo κ υ) m) γ} {b : β}
    (h : x.run.run memo = pure (.ok b, memo)) :
    (x >>= rest).run.run memo = (rest b).run.run memo := by
  change (x.run.run memo >>= fun p => (ExceptT.bindCont rest p.1).run p.2) = _
  rw [h, pure_bind]
  rfl

theorem bind_run_of_error {x : ExceptT ε (StateT (Memo κ υ) m) β}
    {rest : β → ExceptT ε (StateT (Memo κ υ) m) γ} {error : ε}
    (h : x.run.run memo = pure (.error error, memo)) :
    (x >>= rest).run.run memo = pure (.error error, memo) := by
  change (x.run.run memo >>= fun p => (ExceptT.bindCont rest p.1).run p.2) = _
  rw [h, pure_bind]
  rfl

theorem get_run :
    (get : ExceptT ε (StateT (Memo κ υ) m) (Memo κ υ)).run.run memo = pure (.ok memo, memo) := by
  change (Except.ok <$> get : StateT (Memo κ υ) m (Except ε (Memo κ υ))).run memo = _
  rw [StateT.run_map, StateT.run_get, map_pure]

variable [DecidableEq κ]

theorem call_run {keyOf : A → κ} {f : A → StateT (Memo κ υ) m υ} {arg : A} :
    (call keyOf f arg).run memo =
      (match memo.lookup (keyOf arg) with
        | some value => pure value
        | none => f arg >>= fun value => modifyGet (·.store (keyOf arg) value) :
          StateT (Memo κ υ) m υ).run memo := by
  rw [call, StateT.run_bind, StateT.run_get]
  exact pure_bind _ _

theorem tryCall_run_of_error {keyOf : A → Except ε κ}
    {f : A → ExceptT ε (StateT (Memo κ υ) m) υ} {arg : A} {error : ε}
    (hkey : keyOf arg = .error error) :
    (tryCall keyOf f arg).run.run memo = pure (.error error, memo) := by
  rw [tryCall, hkey]
  exact bind_run_of_error rfl

theorem tryCall_run_of_ok {keyOf : A → Except ε κ}
    {f : A → ExceptT ε (StateT (Memo κ υ) m) υ} {arg : A} {key : κ} (hkey : keyOf arg = .ok key) :
    (tryCall keyOf f arg).run.run memo =
      (match memo.lookup key with
        | some value => pure value
        | none => f arg >>= fun value => modifyGet (·.store key value) :
          ExceptT ε (StateT (Memo κ υ) m) υ).run.run memo := by
  rw [tryCall, hkey, bind_run_of_ok rfl]
  exact bind_run_of_ok get_run

end opening

section entries

variable {κ υ : Type} {memo : Memo κ υ} {key : κ} {value : υ}

theorem eq_of_mem_entries (hkeys : (memo.entries.map Prod.fst).Nodup) {other : υ}
    (hvalue : (key, value) ∈ memo.entries) (hother : (key, other) ∈ memo.entries) :
    value = other :=
  congrArg Prod.snd (List.inj_on_of_nodup_map hkeys hvalue hother rfl)

variable [DecidableEq κ]

theorem lookup_eq_none_iff : memo.lookup key = none ↔ ∀ value, (key, value) ∉ memo.entries := by
  simp only [lookup, Option.map_eq_none_iff, List.find?_eq_none, decide_eq_true_eq]
  exact ⟨fun h value hmem => h _ hmem rfl, fun h entry hmem heq => h entry.2 (heq ▸ hmem)⟩

theorem mem_entries_of_lookup (h : memo.lookup key = some value) : (key, value) ∈ memo.entries := by
  obtain ⟨entry, hfind, rfl⟩ := Option.map_eq_some_iff.1 h
  obtain rfl : entry.1 = key := by simpa using List.find?_some hfind
  exact List.mem_of_find?_eq_some hfind

theorem lookup_of_mem_entries (hkeys : (memo.entries.map Prod.fst).Nodup)
    (h : (key, value) ∈ memo.entries) : memo.lookup key = some value := by
  cases hlookup : memo.lookup key with
  | none => exact absurd h (lookup_eq_none_iff.1 hlookup value)
  | some other =>
    exact congrArg some (eq_of_mem_entries hkeys (mem_entries_of_lookup hlookup) h)

theorem store_of_lookup_eq_none (value : υ) (h : memo.lookup key = none) :
    memo.store key value = (value, ⟨memo.entries ++ [(key, value)]⟩) := by
  rw [store, h]

end entries

variable {A κ υ ε σ : Type}

/-- A function in two forms, one that cannot fail and one that may, each with its keys. A run changes
the state of the function and does not use the memo. -/
structure Wrapped (A κ υ ε σ : Type) where
  key : A → κ
  compute : A → StateM σ υ
  tryKey : A → Except ε κ
  tryCompute : A → StateM σ (Except ε υ)

inductive Lookup (A : Type) where
  | call (arg : A)
  | tryCall (arg : A)
  deriving Repr, DecidableEq

inductive Request (A : Type) where
  | lookup (lookup : Lookup A)
  | size
  | clear
  deriving Repr, DecidableEq

inductive Reply (υ ε : Type) where
  | result (result : Except ε υ)
  | size (n : Nat)
  | cleared
  deriving Repr, DecidableEq

structure Record (σ ρ : Type) where
  state : σ
  results : List ρ

def noted {β ρ : Type} (result : β → ρ) (f : StateM σ β) : StateM (Record σ ρ) β := fun record =>
  let (b, state) := f record.state
  (b, ⟨state, record.results ++ [result b]⟩)

namespace Lookup

def key (f : Wrapped A κ υ ε σ) : Lookup A → Except ε κ
  | .call arg => .ok (f.key arg)
  | .tryCall arg => f.tryKey arg

def compute (f : Wrapped A κ υ ε σ) (state : σ) : Lookup A → Except ε υ × σ
  | .call arg => (f.compute arg state).map .ok id
  | .tryCall arg => f.tryCompute arg state

variable [DecidableEq κ]

def run (f : Wrapped A κ υ ε σ) :
    Lookup A → StateT (Memo κ υ) (StateM (Record σ (Except ε υ))) (Except ε υ)
  | .call arg => .ok <$> Memo.call f.key (fun a => StateT.lift (noted .ok (f.compute a))) arg
  | .tryCall arg =>
    (Memo.tryCall f.tryKey (fun a => ExceptT.mk (StateT.lift (noted id (f.tryCompute a)))) arg).run

end Lookup

def pair? (key : κ) (result : Except ε υ) : Option (κ × υ) := result.toOption.map (key, ·)

/-- The memo after a result was computed for a key that was not there. -/
def keep (memo : Memo κ υ) (key : κ) : Except ε υ → Memo κ υ
  | .ok value => ⟨memo.entries ++ [(key, value)]⟩
  | .error _ => memo

theorem entries_keep (memo : Memo κ υ) (key : κ) (result : Except ε υ) :
    (keep memo key result).entries = memo.entries ++ [result].filterMap (pair? key) := by
  cases result <;> simp [keep, pair?, Except.toOption]

section run

variable [DecidableEq κ] {f : Wrapped A κ υ ε σ} {lookup : Lookup A} {memo : Memo κ υ} {key : κ}
  {record : Record σ (Except ε υ)}

theorem nodup_keep (hkeys : (memo.entries.map Prod.fst).Nodup) (hnone : memo.lookup key = none)
    (result : Except ε υ) : ((keep memo key result).entries.map Prod.fst).Nodup := by
  cases result with
  | error error => exact hkeys
  | ok value =>
    have hnew : key ∉ memo.entries.map Prod.fst := fun hmem => by
      obtain ⟨entry, hentry, rfl⟩ := List.mem_map.1 hmem
      exact lookup_eq_none_iff.1 hnone entry.2 hentry
    simpa [keep] using (List.nodup_concat _ _).2 ⟨hnew, hkeys⟩

theorem run_of_error {error : ε} (hkey : lookup.key f = .error error) :
    (lookup.run f).run memo record = ((.error error, memo), record) := by
  cases lookup with
  | call arg => cases hkey
  | tryCall arg =>
    change f.tryKey arg = .error error at hkey
    rw [Lookup.run, tryCall_run_of_error hkey]
    rfl

theorem run_of_hit {value : υ} (hkey : lookup.key f = .ok key)
    (hvalue : memo.lookup key = some value) :
    (lookup.run f).run memo record = ((.ok value, memo), record) := by
  cases lookup with
  | call arg =>
    obtain rfl : f.key arg = key := Except.ok.inj hkey
    rw [Lookup.run, StateT.run_map, call_run, hvalue]
    rfl
  | tryCall arg =>
    change f.tryKey arg = .ok key at hkey
    rw [Lookup.run, tryCall_run_of_ok hkey, hvalue]
    rfl

theorem run_of_miss (hkey : lookup.key f = .ok key) (hvalue : memo.lookup key = none) :
    (lookup.run f).run memo record =
      (((lookup.compute f record.state).1, keep memo key (lookup.compute f record.state).1),
        ⟨(lookup.compute f record.state).2,
          record.results ++ [(lookup.compute f record.state).1]⟩) := by
  cases lookup with
  | call arg =>
    obtain rfl : f.key arg = key := Except.ok.inj hkey
    rw [Lookup.run, StateT.run_map, call_run, hvalue]
    change ((Except.ok (memo.store _ (f.compute arg record.state).1).1,
      (memo.store _ (f.compute arg record.state).1).2), _) = _
    rw [store_of_lookup_eq_none _ hvalue]
    rfl
  | tryCall arg =>
    change f.tryKey arg = .ok key at hkey
    rw [Lookup.run, tryCall_run_of_ok hkey, hvalue]
    simp only [Lookup.compute]
    change (ExceptT.bindCont (fun value => modifyGet (·.store key value))
      (f.tryCompute arg record.state).1 : StateT (Memo κ υ) (StateM (Record σ (Except ε υ))) _) memo
        ⟨(f.tryCompute arg record.state).2, record.results ++ [(f.tryCompute arg record.state).1]⟩ = _
    cases (f.tryCompute arg record.state).1 with
    | error error => rfl
    | ok value =>
      change ((Except.ok (memo.store key value).1, (memo.store key value).2), _) = _
      rw [store_of_lookup_eq_none _ hvalue]
      rfl

end run

structure Moment (κ υ σ : Type) where
  memo : Memo κ υ
  state : σ

structure Visit (A κ υ ε σ : Type) where
  request : Request A
  before : Moment κ υ σ
  reply : Reply υ ε
  results : List (Except ε υ)
  after : Moment κ υ σ

section visits

variable [DecidableEq κ]

def visit (f : Wrapped A κ υ ε σ) (now : Moment κ υ σ) (request : Request A) : Visit A κ υ ε σ :=
  match request with
  | .lookup lookup =>
    let ((result, memo), record) := (lookup.run f).run now.memo ⟨now.state, []⟩
    ⟨request, now, .result result, record.results, ⟨memo, record.state⟩⟩
  | .size => ⟨request, now, .size now.memo.size, [], now⟩
  | .clear => ⟨request, now, .cleared, [], ⟨empty, now.state⟩⟩

/-- Answers requests one after the other. -/
def visits (f : Wrapped A κ υ ε σ) : Moment κ υ σ → List (Request A) → List (Visit A κ υ ε σ)
  | _, [] => []
  | now, request :: requests => visit f now request :: visits f (visit f now request).after requests

end visits

def addComputed (f : Wrapped A κ υ ε σ) (pairs : List (κ × υ)) (visit : Visit A κ υ ε σ) :
    List (κ × υ) :=
  match visit.request with
  | .lookup lookup =>
    match lookup.key f with
    | .ok key => pairs ++ visit.results.filterMap (pair? key)
    | .error _ => pairs
  | .size => pairs
  | .clear => []

/-- The keys computed since the last clearing, each with its value. -/
def computed (f : Wrapped A κ υ ε σ) (past : List (Visit A κ υ ε σ)) : List (κ × υ) :=
  past.foldl (addComputed f) []

structure Visit.Idle (visit : Visit A κ υ ε σ) (reply : Reply υ ε) : Prop where
  reply_eq : visit.reply = reply
  results_eq : visit.results = []
  after_eq : visit.after = visit.before

structure Visit.RunsOnce (f : Wrapped A κ υ ε σ) (lookup : Lookup A) (visit : Visit A κ υ ε σ)
    (result : Except ε υ) : Prop where
  compute_eq : lookup.compute f visit.before.state = (result, visit.after.state)
  results_eq : visit.results = [result]
  reply_eq : visit.reply = .result result
  memo_eq : ∀ error, result = .error error → visit.after.memo = visit.before.memo

/-- What a visit owes to those before it. -/
def Transparent [DecidableEq κ] (f : Wrapped A κ υ ε σ) (past : List (Visit A κ υ ε σ))
    (visit : Visit A κ υ ε σ) : Prop :=
  match visit.request with
  | .lookup lookup =>
    match lookup.key f with
    | .error error => visit.Idle (.result (.error error))
    | .ok key =>
      (∀ value, (key, value) ∈ computed f past → visit.Idle (.result (.ok value))) ∧
        ((∀ value, (key, value) ∉ computed f past) → ∃ result, visit.RunsOnce f lookup result)
  | .size => visit.Idle (.size ((computed f past).map Prod.fst).toFinset.card)
  | .clear => visit.reply = .cleared ∧ visit.results = [] ∧
      visit.after = ⟨empty, visit.before.state⟩

/-- What holds of the entries of a memo after some visits: they are those computed, no key twice, and
the function gave each of them. -/
structure Tells (f : Wrapped A κ υ ε σ) (past : List (Visit A κ υ ε σ)) (memo : Memo κ υ) : Prop where
  entries_eq : memo.entries = computed f past
  nodup : (memo.entries.map Prod.fst).Nodup
  given : ∀ key value, (key, value) ∈ memo.entries →
    ∃ (lookup : Lookup A) (state : σ), lookup.key f = .ok key ∧
      (lookup.compute f state).1 = .ok value

theorem tells_empty (f : Wrapped A κ υ ε σ) : Tells f [] (empty : Memo κ υ) :=
  ⟨rfl, List.nodup_nil, fun _ _ hmem => absurd hmem List.not_mem_nil⟩

theorem computed_append_visit (f : Wrapped A κ υ ε σ) (past : List (Visit A κ υ ε σ))
    (visit : Visit A κ υ ε σ) :
    computed f (past ++ [visit]) = addComputed f (computed f past) visit := by
  rw [computed, List.foldl_append]
  rfl

section history

variable [DecidableEq κ] {f : Wrapped A κ υ ε σ} {past : List (Visit A κ υ ε σ)}
  {now : Moment κ υ σ} {lookup : Lookup A} {key : κ}

theorem visit_of_error {error : ε} (hkey : lookup.key f = .error error) :
    visit f now (.lookup lookup) = ⟨.lookup lookup, now, .result (.error error), [], now⟩ := by
  simp only [visit, run_of_error hkey]

theorem visit_of_hit {value : υ} (hkey : lookup.key f = .ok key)
    (hvalue : now.memo.lookup key = some value) :
    visit f now (.lookup lookup) = ⟨.lookup lookup, now, .result (.ok value), [], now⟩ := by
  simp only [visit, run_of_hit hkey hvalue]

theorem visit_of_miss (hkey : lookup.key f = .ok key) (hvalue : now.memo.lookup key = none) :
    visit f now (.lookup lookup) =
      ⟨.lookup lookup, now, .result (lookup.compute f now.state).1,
        [(lookup.compute f now.state).1],
        ⟨keep now.memo key (lookup.compute f now.state).1, (lookup.compute f now.state).2⟩⟩ := by
  simp only [visit, run_of_miss hkey hvalue, List.nil_append]

theorem transparent_visit (h : Tells f past now.memo) (request : Request A) :
    Transparent f past (visit f now request) := by
  cases request with
  | lookup lookup =>
    change match lookup.key f with
      | .error error => _
      | .ok key => _
    cases hkey : lookup.key f with
    | error error =>
      rw [visit_of_error hkey]
      exact ⟨rfl, rfl, rfl⟩
    | ok key =>
      refine ⟨fun value hmem => ?_, fun hmem => ?_⟩
      · rw [visit_of_hit hkey (lookup_of_mem_entries h.nodup (h.entries_eq ▸ hmem))]
        exact ⟨rfl, rfl, rfl⟩
      · rw [visit_of_miss hkey (lookup_eq_none_iff.2 (h.entries_eq ▸ hmem))]
        exact ⟨_, rfl, rfl, rfl, fun _ herror => congrArg (keep now.memo key) herror⟩
  | size =>
    refine ⟨congrArg Reply.size ?_, rfl, rfl⟩
    rw [← h.entries_eq, List.toFinset_card_of_nodup h.nodup, List.length_map]
    rfl
  | clear => exact ⟨rfl, rfl, rfl⟩

theorem Tells.keep (h : Tells f past now.memo) (hkey : lookup.key f = .ok key)
    (hvalue : now.memo.lookup key = none) :
    Tells f (past ++ [visit f now (.lookup lookup)])
      (Memo.keep now.memo key (lookup.compute f now.state).1) := by
  refine ⟨?_, nodup_keep h.nodup hvalue _, fun other value hmem => ?_⟩
  · rw [visit_of_miss hkey hvalue, computed_append_visit, entries_keep, h.entries_eq]
    simp only [addComputed, hkey]
  · rw [entries_keep, List.mem_append, List.mem_filterMap] at hmem
    rcases hmem with hmem | ⟨result, hresult, hpair⟩
    · exact h.given other value hmem
    · -- the only new pair is the one just computed
      obtain rfl := List.mem_singleton.1 hresult
      cases hcompute : (lookup.compute f now.state).1 with
      | error error => simp [pair?, hcompute, Except.toOption] at hpair
      | ok computed =>
        simp only [pair?, hcompute, Except.toOption, Option.map_some, Option.some.injEq,
          Prod.mk.injEq] at hpair
        exact ⟨lookup, now.state, hpair.1 ▸ hkey, hcompute.trans (congrArg Except.ok hpair.2)⟩

theorem tells_visit (h : Tells f past now.memo) (request : Request A) :
    Tells f (past ++ [visit f now request]) (visit f now request).after.memo := by
  cases request with
  | lookup lookup =>
    cases hkey : lookup.key f with
    | error error =>
      rw [visit_of_error hkey]
      refine ⟨?_, h.nodup, h.given⟩
      simp only [computed_append_visit, addComputed, hkey, h.entries_eq]
    | ok key =>
      cases hvalue : now.memo.lookup key with
      | some value =>
        rw [visit_of_hit hkey hvalue]
        refine ⟨?_, h.nodup, h.given⟩
        simp only [computed_append_visit, addComputed, hkey, h.entries_eq, List.filterMap_nil,
          List.append_nil]
      | none =>
        have hkeep := h.keep hkey hvalue
        rw [visit_of_miss hkey hvalue] at hkeep ⊢
        exact hkeep
  | size =>
    refine ⟨?_, h.nodup, h.given⟩
    simp only [computed_append_visit, addComputed, visit, h.entries_eq]
  | clear =>
    refine ⟨?_, List.nodup_nil, fun _ _ hmem => absurd hmem List.not_mem_nil⟩
    rw [computed_append_visit]
    rfl

theorem visits_split {requests : List (Request A)} {front rest : List (Visit A κ υ ε σ)}
    (h : Tells f past now.memo) (hsplit : visits f now requests = front ++ rest) :
    ∃ later requests', Tells f (past ++ front) (later : Moment κ υ σ).memo ∧
      rest = visits f later requests' := by
  induction front generalizing past now requests with
  | nil => exact ⟨now, requests, by simpa using h, hsplit.symm⟩
  | cons first front ih =>
    cases requests with
    | nil => cases hsplit
    | cons request requests =>
      obtain ⟨rfl, hrest⟩ := List.cons.inj hsplit
      simpa using ih (tells_visit h request) hrest

theorem transparent_of_visits {requests : List (Request A)} {front rest : List (Visit A κ υ ε σ)}
    {visit : Visit A κ υ ε σ} (h : Tells f past now.memo)
    (hsplit : visits f now requests = front ++ visit :: rest) :
    Transparent f (past ++ front) visit := by
  obtain ⟨later, requests, hlater, hrest⟩ := visits_split h hsplit
  cases requests with
  | nil => cases hrest
  | cons request requests =>
    obtain ⟨rfl, _⟩ := List.cons.inj hrest
    exact transparent_visit hlater request

theorem map_request_visits (f : Wrapped A κ υ ε σ) (now : Moment κ υ σ)
    (requests : List (Request A)) : (visits f now requests).map Visit.request = requests := by
  induction requests generalizing now with
  | nil => rfl
  | cons request requests ih =>
    refine congrArg₂ List.cons ?_ (ih _)
    cases request <;> rfl

theorem reply_of_determined {value : Lookup A → Except ε υ} {visit : Visit A κ υ ε σ}
    (h : Tells f past now.memo) (htransparent : Transparent f past visit)
    (hvalue : ∀ (lookup : Lookup A) state, (lookup.compute f state).1 = value lookup)
    (hkeys : ∀ (lookup other : Lookup A) key, lookup.key f = .ok key → other.key f = .ok key →
      value lookup = value other)
    (hrequest : visit.request = .lookup lookup) (hkey : lookup.key f = .ok key) :
    visit.reply = .result (value lookup) := by
  simp only [Transparent, hrequest, hkey] at htransparent
  obtain ⟨hhit, hmiss⟩ := htransparent
  by_cases hcomputed : ∃ computed, (key, computed) ∈ Memo.computed f past
  · obtain ⟨computed, hmem⟩ := hcomputed
    obtain ⟨other, state, hother, hgiven⟩ := h.given key computed (h.entries_eq ▸ hmem)
    rw [(hhit computed hmem).reply_eq, hkeys lookup other key hkey hother, ← hvalue other state,
      hgiven]
  · obtain ⟨result, hruns⟩ := hmiss (not_exists.1 hcomputed)
    have hresult := congrArg Prod.fst hruns.compute_eq
    rw [hvalue] at hresult
    rw [hruns.reply_eq, hresult]

end history

/-- From the empty memo on, every request is answered as its history tells: by the value computed for
its key since the last clearing, and else by one run of the function. No key is computed twice between
two clearings. So a function that is determined by its keys is answered as without a memo. -/
theorem visits_transparent [DecidableEq κ] (f : Wrapped A κ υ ε σ) (state : σ)
    (requests : List (Request A)) :
    (visits f ⟨empty, state⟩ requests).map Visit.request = requests ∧
      (∀ past visit rest, visits f ⟨empty, state⟩ requests = past ++ visit :: rest →
        Transparent f past visit) ∧
      (∀ past rest, visits f ⟨empty, state⟩ requests = past ++ rest →
        ((computed f past).map Prod.fst).Nodup) ∧
      ∀ value : Lookup A → Except ε υ,
        (∀ lookup state, (lookup.compute f state).1 = value lookup) →
        (∀ lookup other key, lookup.key f = .ok key → other.key f = .ok key →
          value lookup = value other) →
        ∀ visit ∈ visits f ⟨empty, state⟩ requests, ∀ lookup key,
          visit.request = .lookup lookup → lookup.key f = .ok key →
          visit.reply = .result (value lookup) := by
  let start : Moment κ υ σ := ⟨empty, state⟩
  have hempty : Tells f [] start.memo := tells_empty f
  refine ⟨map_request_visits _ _ _, fun past visit rest hsplit => ?_, fun past rest hsplit => ?_,
    fun value hvalue hkeys visit hmem lookup key hrequest hkey => ?_⟩
  · exact transparent_of_visits hempty hsplit
  · obtain ⟨later, _, hlater, _⟩ := visits_split hempty hsplit
    exact hlater.entries_eq ▸ hlater.nodup
  · obtain ⟨past, rest, hsplit⟩ := List.append_of_mem hmem
    obtain ⟨later, _, hlater, _⟩ := visits_split hempty hsplit
    exact reply_of_determined hlater (transparent_of_visits hempty hsplit)
      hvalue hkeys hrequest hkey

def counting : Wrapped Nat Nat Nat String Nat where
  key n := n % 3
  compute n runs := (10 * n + runs, runs + 1)
  tryKey n := if n = 0 then .error "no key" else .ok (n % 3)
  tryCompute n runs := (if n = 8 then .error "no value" else .ok (10 * n + runs), runs + 1)

example :
    (visits counting ⟨empty, 0⟩
      [.lookup (.call 4), .lookup (.tryCall 7), .lookup (.tryCall 0), .lookup (.tryCall 8),
        .lookup (.tryCall 5), .size, .clear, .lookup (.call 1), .size]).map Visit.reply =
      [.result (.ok 40), .result (.ok 40), .result (.error "no key"), .result (.error "no value"),
        .result (.ok 52), .size 2, .cleared, .result (.ok 13), .size 1] := by
  rfl

end TrackingScore.Memo
