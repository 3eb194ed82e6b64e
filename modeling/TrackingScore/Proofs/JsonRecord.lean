import Mathlib.Data.List.Nodup
import Mathlib.Logic.Function.Basic
import TrackingScore.Proofs.WrittenJson

/-!
Reading records from values of which any members may be absent or unknown and none of the known is given
twice. Unknown members are passed over; those of a record that is told by a tag are read in full first,
so their numbers have to be readable and their nesting is bounded.
-/

namespace TrackingScore.Json

/-! ## Members of an object -/

def members : Json → List (String × Json)
  | .object members => members
  | _ => []

def member? (json : Json) (name : String) : Option Json := json.members.lookup name

def has (json : Json) (name : String) : Bool := (json.member? name).isSome

/-- A value some of whose members may have been left out, put in another order, edited in turn or
joined by others. A member that was there is not there twice. -/
inductive Edited : Json → Json → Prop where
  | same (json : Json) : Edited json json
  | object {members edited : List (String × Json)}
      (honce : ∀ name ∈ members.map Prod.fst, (edited.map Prod.fst).count name ≤ 1)
      (hkept : ∀ name original value, (name, original) ∈ members → (name, value) ∈ edited →
        Edited original value) :
      Edited (.object members) (.object edited)

theorem Edited.eq_of_not_object {json edited : Json} (h : Edited json edited)
    (hjson : ∀ members, json ≠ .object members) : edited = json := by
  cases h with
  | same => rfl
  | object => exact absurd rfl (hjson _)

theorem Edited.of_object {members : List (String × Json)} {edited : Json}
    (h : Edited (.object members) edited) (hnames : (members.map Prod.fst).Nodup) :
    ∃ others, edited = .object others ∧
      (∀ name ∈ members.map Prod.fst, (others.map Prod.fst).count name ≤ 1) ∧
      ∀ name original value, (name, original) ∈ members → (name, value) ∈ others →
        Edited original value := by
  cases h with
  | object honce hkept => exact ⟨_, rfl, honce, hkept⟩
  | same =>
    refine ⟨members, rfl, fun name _ => List.nodup_iff_count_le_one.1 hnames name, ?_⟩
    intro name original value horiginal hvalue
    obtain rfl : original = value :=
      (Prod.mk.inj (List.inj_on_of_nodup_map hnames horiginal hvalue rfl)).2
    exact .same original

theorem Edited.of_lookup {members edited : List (String × Json)}
    (hnames : (members.map Prod.fst).Nodup)
    (honce : ∀ name ∈ members.map Prod.fst, (edited.map Prod.fst).count name ≤ 1)
    (hkept : ∀ member ∈ edited, ∀ original, members.lookup member.1 = some original →
      Edited original member.2) : Edited (.object members) (.object edited) := by
  refine .object honce fun name original value horiginal hvalue => hkept _ hvalue original ?_
  cases hlookup : members.lookup name with
  | none =>
    have hne := List.lookup_eq_none_iff.1 hlookup _ horiginal
    simp at hne
  | some other =>
    obtain ⟨before, after, rfl, -⟩ := List.lookup_eq_some_iff.1 hlookup
    have hother : (name, other) ∈ before ++ (name, other) :: after := by simp
    rw [(Prod.mk.inj (List.inj_on_of_nodup_map hnames horiginal hother rfl)).2]

mutual

/-- How deep arrays and objects are nested. -/
def levels : Json → Nat
  | .array items => levelsOfItems items + 1
  | .object members => levelsOfMembers members + 1
  | _ => 0

def levelsOfItems : List Json → Nat
  | [] => 0
  | item :: items => max (levels item) (levelsOfItems items)

def levelsOfMembers : List (String × Json) → Nat
  | [] => 0
  | (_, value) :: members => max (levels value) (levelsOfMembers members)

end

namespace Reader

variable {α σ τ : Type} (format : NumberFormat α)

theorem fault?_draft (json : Json) : (draft json).fault? = none := by
  cases json <;> rfl

/-! ## Values -/

theorem number_draft {n : NumberText} {x : α} (h : format.read n.numeral = some x) :
    number format (draft (.number n.string)) = .ok x := by
  rw [draft, numeralOf_string, number]
  simp only [h]

theorem integer_draft {word? : Int → Option σ} {i : Int} {word : σ}
    (hi : (NumberText.ofInt i).numeral.integer? = some i) (h : word? i = some word) :
    integer format word? (draft (.ofInt i)) = .ok word := by
  rw [ofInt, ← NumberText.string_ofInt, draft, numeralOf_string, integer]
  simp only [hi, h]

theorem int64_draft (t : Int64) : int64 format (draft (.ofInt64 t)) = .ok t :=
  integer_draft format (NumberText.integer?_ofInt64 t) (int64?_toInt t)

theorem uint64_draft (n : UInt64) : uint64 format (draft (.ofUInt64 n)) = .ok n :=
  integer_draft format (NumberText.integer?_ofUInt64 n) (uint64?_toNat n)

theorem nullable_draft {read : Reader σ} {json : Json} {x : σ} (hnull : json ≠ .null)
    (hread : read (draft json) = .ok x) : nullable read (draft json) = .ok (some x) := by
  cases json with
  | null => exact absurd rfl hnull
  | _ =>
    rw [draft] at hread ⊢
    simp only [nullable, hread]
    rfl

/-! ## Records -/

def GivenOnce (names seen keys : List String) : Prop :=
  ∀ name ∈ names, keys.count name ≤ 1 ∧ (name ∈ seen → name ∉ keys)

section givenOnce

variable {names seen keys : List String} {key : String}

theorem GivenOnce.tail (h : GivenOnce names seen (key :: keys)) : GivenOnce names seen keys :=
  fun name hname => ⟨(List.count_le_count_cons).trans (h name hname).1,
    fun hseen hkey => (h name hname).2 hseen (List.mem_cons_of_mem _ hkey)⟩

theorem GivenOnce.not_mem_seen (h : GivenOnce names seen (key :: keys)) (hkey : key ∈ names) :
    key ∉ seen := fun hseen => (h key hkey).2 hseen List.mem_cons_self

theorem GivenOnce.cons (h : GivenOnce names seen (key :: keys)) :
    GivenOnce names (key :: seen) keys := by
  intro name hname
  refine ⟨(h.tail name hname).1, fun hseen => ?_⟩
  rcases List.mem_cons.1 hseen with rfl | hseen
  · have hcount := (h name hname).1
    rw [List.count_cons_self] at hcount
    exact List.count_eq_zero.1 (by omega)
  · exact (h.tail name hname).2 hseen

end givenOnce

/-- A record some fields of which are put in: it depends on the names of its fields alone. -/
def DependsOn (fields : List (Field σ)) (target : (String → Bool) → σ) : Prop :=
  ∀ put put', (∀ field ∈ fields, put field.name = put' field.name) → target put = target put'

def ReadsField (target : (String → Bool) → σ) (members : List (String × Json))
    (field : Field σ) : Prop :=
  ∀ value put, (field.name, value) ∈ members →
    field.update (draft value) (target put) = .ok (target (Function.update put field.name true))

theorem readMembers_draft {fields : List (Field σ)} {target : (String → Bool) → σ}
    (htarget : DependsOn fields target) : ∀ {members : List (String × Json)} {seen : List String}
    (put : String → Bool), (∀ field ∈ fields, ReadsField target members field) →
    GivenOnce (fields.map (·.name)) seen (members.map Prod.fst) →
      readMembers fields seen (target put) (draftMembers members) =
        .ok (target fun name => put name || (members.lookup name).isSome)
  | [], seen, put, _, _ => by
    simp [draftMembers, readMembers]
  | (key, value) :: members, seen, put, hread, honce => by
    have hrest : ∀ field ∈ fields, ReadsField target members field :=
      fun field hfield value put hvalue => hread field hfield value put (List.mem_cons_of_mem _ hvalue)
    rw [draftMembers, readMembers]
    cases hfind : fields.find? (·.name = key) with
    | none =>
      have hunknown : ∀ field ∈ fields, field.name ≠ key := by simpa using hfind
      have ih := readMembers_draft htarget put hrest honce.tail
      simp only [bind, Except.bind, hfind, fault?_draft, ended, ih]
      congr 1
      refine htarget _ _ fun field hfield => ?_
      rw [List.lookup_cons, beq_eq_false_iff_ne.2 (hunknown field hfield)]
    | some field =>
      have hfield : field ∈ fields := List.mem_of_find?_eq_some hfind
      obtain rfl : field.name = key := by simpa using List.find?_some hfind
      have hname : field.name ∈ fields.map (·.name) := List.mem_map_of_mem hfield
      have hupdate := hread field hfield value put List.mem_cons_self
      have ih := readMembers_draft htarget (Function.update put field.name true) hrest honce.cons
      simp only [bind, Except.bind, hfind, if_neg (honce.not_mem_seen hname), hupdate, ih]
      congr 2
      funext name
      by_cases heq : name = field.name
      · simp [heq]
      · rw [List.lookup_cons, beq_eq_false_iff_ne.2 heq, Function.update_of_ne heq]

theorem record_draft {fields : List (Field σ)} {target : (String → Bool) → σ} {start : σ}
    {members : List (String × Json)} (hstart : target (fun _ => false) = start)
    (htarget : DependsOn fields target) (hread : ∀ field ∈ fields, ReadsField target members field)
    (honce : ∀ field ∈ fields, (members.map Prod.fst).count field.name ≤ 1) :
    record format fields start (draft (.object members)) =
      .ok (target (has (.object members))) := by
  have hgiven : GivenOnce (fields.map (·.name)) [] (members.map Prod.fst) :=
    List.forall_mem_map.2 fun field hfield =>
      ⟨honce field hfield, fun h => absurd h List.not_mem_nil⟩
  have hmembers := readMembers_draft htarget (fun _ => false) hread hgiven
  rw [draft, record, ← hstart]
  simp only [hmembers, Bool.false_or]
  rfl

theorem lookup_eq_some_of_mem {members : List (String × Json)} {name : String} {value : Json}
    (hcount : (members.map Prod.fst).count name ≤ 1) (h : (name, value) ∈ members) :
    members.lookup name = some value := by
  induction members with
  | nil => cases h
  | cons member members ih =>
    rw [List.map_cons] at hcount
    by_cases hname : member.1 = name
    · rw [hname, List.count_cons_self] at hcount
      have habsent : name ∉ members.map Prod.fst := List.count_eq_zero.1 (by omega)
      obtain rfl : member = (name, value) :=
        ((List.mem_cons.1 h).resolve_right fun hmem => habsent (List.mem_map_of_mem hmem)).symm
      simp
    · rw [List.count_cons_of_ne hname] at hcount
      have hmem := (List.mem_cons.1 h).resolve_left fun heq => hname (heq ▸ rfl)
      rw [List.lookup_cons, beq_eq_false_iff_ne.2 (Ne.symm hname)]
      exact ih hcount hmem

def ReadsEdited (target : (String → Bool) → σ) (edited original : Json) (field : Field σ) : Prop :=
  ∀ value put, Edited original value → edited.member? field.name = some value →
    field.update (draft value) (target put) = .ok (target (Function.update put field.name true))

theorem readsEdited_field {target : (String → Bool) → σ} {edited original : Json} {name : String}
    {read : Reader τ} {set : τ → σ → σ} {x : τ}
    (hread : ∀ value, Edited original value → edited.member? name = some value →
      read (draft value) = .ok x)
    (hset : ∀ put, set x (target put) = target (Function.update put name true)) :
    ReadsEdited target edited original (field name read set) := by
  intro value put hedited hvalue
  change (read (draft value)).map _ = _
  rw [hread value hedited hvalue]
  exact congrArg Except.ok (hset put)

/-- An edited record is read with the fields that are still there. -/
theorem record_edited {fields : List (Field σ)} (target : (String → Bool) → σ) {start : σ}
    {members : List (String × Json)} {edited : Json} (hedited : Edited (.object members) edited)
    (hnames : (members.map Prod.fst).Nodup) (hstart : target (fun _ => false) = start)
    (htarget : DependsOn fields target)
    (hread : ∀ field ∈ fields,
      ∃ original, (field.name, original) ∈ members ∧ ReadsEdited target edited original field) :
    record format fields start (draft edited) = .ok (target edited.has) := by
  obtain ⟨others, rfl, honce, hkept⟩ := hedited.of_object hnames
  have hcount : ∀ field ∈ fields, (others.map Prod.fst).count field.name ≤ 1 := fun field hfield => by
    obtain ⟨original, hmember, -⟩ := hread field hfield
    exact honce _ (List.mem_map_of_mem hmember)
  refine record_draft format hstart htarget (fun field hfield value put hvalue => ?_) hcount
  obtain ⟨original, hmember, hreads⟩ := hread field hfield
  exact hreads value put (hkept _ _ _ hmember hvalue)
    (lookup_eq_some_of_mem (hcount field hfield) hvalue)

/-! ## Values read in full -/

def Readable (spellings : List String) : Prop :=
  ∀ s ∈ spellings, ∃ n, numeralOf s = .ok n ∧ reads format n = true

variable {format}

@[simp] theorem readable_nil : Readable format [] := fun _ h => absurd h List.not_mem_nil

@[simp] theorem readable_append {ss ts : List String} :
    Readable format (ss ++ ts) ↔ Readable format ss ∧ Readable format ts :=
  List.forall_mem_append

theorem readable_ofUInt64 (n : UInt64) : Readable format (ofUInt64 n).spellings := by
  intro s hs
  refine ⟨(NumberText.ofInt n.toNat).numeral, ?_, ?_⟩
  · rw [List.mem_singleton.1 hs, ← NumberText.string_ofInt, numeralOf_string]
  · rw [reads, NumberText.integer?_ofUInt64]
    rfl

mutual

theorem settle_draft : ∀ (json : Json) {depth : Nat}, json.levels ≤ depth →
    Readable format json.spellings → settle format depth (draft json) = .ok ()
  | .null, _, _, _ => by rw [draft, settle]
  | .bool _, _, _, _ => by rw [draft, settle]
  | .number s, _, _, h => by
    obtain ⟨n, hn, hreads⟩ := h s (List.mem_singleton_self s)
    rw [draft, hn, settle, if_pos hreads]
  | .string _, _, _, _ => by rw [draft, settle]
  | .array items, 0, hlevels, _ => absurd hlevels (Nat.not_succ_le_zero _)
  | .array items, depth + 1, hlevels, h => by
    rw [draft, settle, settleItems_draft items (Nat.le_of_succ_le_succ hlevels) h]
    rfl
  | .object members, 0, hlevels, _ => absurd hlevels (Nat.not_succ_le_zero _)
  | .object members, depth + 1, hlevels, h => by
    rw [draft, settle, settleMembers_draft members (Nat.le_of_succ_le_succ hlevels) h]
    rfl

theorem settleItems_draft : ∀ (items : List Json) {depth : Nat}, levelsOfItems items ≤ depth →
    Readable format (spellingsOfItems items) → settleItems format depth (draftItems items) = .ok ()
  | [], _, _, _ => by rw [draftItems, settleItems]
  | item :: items, _, hlevels, h => by
    have hlevels := max_le_iff.1 hlevels
    have h := readable_append.1 h
    rw [draftItems, settleItems, settle_draft item hlevels.1 h.1]
    exact settleItems_draft items hlevels.2 h.2

theorem settleMembers_draft : ∀ (members : List (String × Json)) {depth : Nat},
    levelsOfMembers members ≤ depth → Readable format (spellingsOfMembers members) →
      settleMembers format depth (draftMembers members) = .ok ()
  | [], _, _, _ => by rw [draftMembers, settleMembers]
  | (_, value) :: members, _, hlevels, h => by
    have hlevels := max_le_iff.1 hlevels
    have h := readable_append.1 h
    rw [draftMembers, settleMembers, settle_draft value hlevels.1 h.1]
    exact settleMembers_draft members hlevels.2 h.2

end

/-! ## Records told by a tag -/

section tagged

variable {tag : String} {kind : Reader τ} {depth : Nat}

theorem readTag_found {k : τ} : ∀ {members : List (String × Json)},
    (∀ member ∈ members, member.1 ≠ tag ∧ settle format depth (draft member.2) = .ok ()) →
      readTag format tag kind depth (some k) (draftMembers members) = .ok (some k)
  | [], _ => rfl
  | (key, value) :: members, h => by
    obtain ⟨hkey, hvalue⟩ := h (key, value) List.mem_cons_self
    rw [draftMembers, readTag]
    simp only [bind, Except.bind, hkey, if_false, hvalue]
    exact readTag_found fun member hmember => h member (List.mem_cons_of_mem _ hmember)

theorem readTag_draft {k : τ} {value : Json} (hkind : kind (draft value) = .ok k) :
    ∀ {members : List (String × Json)}, (tag, value) ∈ members →
      (members.map Prod.fst).count tag ≤ 1 →
      (∀ member ∈ members, member.1 ≠ tag → settle format depth (draft member.2) = .ok ()) →
        readTag format tag kind depth none (draftMembers members) = .ok (some k)
  | (key, other) :: members, hvalue, hcount, h => by
    have hrest : ∀ member ∈ members, member.1 ≠ tag → settle format depth (draft member.2) = .ok () :=
      fun member hmember => h member (List.mem_cons_of_mem _ hmember)
    rw [draftMembers, readTag]
    rw [List.map_cons] at hcount
    by_cases hkey : key = tag
    · subst hkey
      rw [List.count_cons_self] at hcount
      have habsent : key ∉ members.map Prod.fst := List.count_eq_zero.1 (by omega)
      obtain rfl : value = other := by
        rcases List.mem_cons.1 hvalue with heq | hmem
        · exact (Prod.mk.inj heq).2
        · exact absurd (List.mem_map_of_mem hmem) habsent
      simp only [bind, Except.bind, if_true, hkind]
      refine readTag_found fun member hmember => ⟨?_, hrest member hmember ?_⟩
      all_goals
        rintro rfl
        exact habsent (List.mem_map_of_mem hmember)
    · have hother := h (key, other) List.mem_cons_self hkey
      have hmem : (tag, value) ∈ members :=
        (List.mem_cons.1 hvalue).resolve_left fun heq => hkey (Prod.mk.inj heq).1.symm
      rw [List.count_cons_of_ne hkey] at hcount
      simp only [bind, Except.bind, hkey, if_false, hother]
      exact readTag_draft hkind hmem hcount hrest

theorem tagged_draft {contents : τ → Reader σ} {k : τ} {value : Json}
    {members : List (String × Json)} (hkind : kind (draft value) = .ok k)
    (hvalue : (tag, value) ∈ members) (hcount : (members.map Prod.fst).count tag ≤ 1)
    (h : ∀ member ∈ members, member.1 ≠ tag → settle format depth (draft member.2) = .ok ()) :
    tagged format tag depth kind contents (draft (.object members)) =
      contents k (draft (.object members)) := by
  have htag := readTag_draft hkind hvalue hcount h
  rw [draft, tagged]
  simp only [htag]
  rfl

end tagged
end Reader
end TrackingScore.Json
