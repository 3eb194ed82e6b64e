import TrackingScore.Proofs.FrameTable
import TrackingScore.Proofs.RunOutcome

/-!
Labels of runs. A label is taken apart at its commas into the names of the knobs that are turned, so
it tells all knobs of an approximate tracker. Its first letter tells where the poses of a run come
from.
-/

namespace TrackingScore

namespace ApproxConfig

variable {c : ApproxConfig}

/-! ## Names of turned knobs -/

/-- Knobs that are on or off, each with what a label calls it when it is off. -/
def switches : List (String × (ApproxConfig → Bool)) :=
  [("!rk4", rk4), ("!stereo", stereo), ("!klt", klt), ("!tw", timewarp)]

def pointsName (n : UInt64) : String := s!"pts={n}"

theorem toList_pointsName (n : UInt64) :
    (pointsName n).toList = ['p', 't', 's', '='] ++ (toString n).toList :=
  String.toList_append

theorem pointsName_injective : Function.Injective pointsName := by
  intro m n h
  have htexts := congrArg String.toList h
  rw [toList_pointsName, toList_pointsName, List.append_cancel_left_eq, String.toList_inj] at htexts
  exact Decimal.toString_injective htexts

theorem changes_eq (c : ApproxConfig) :
    c.changes = (if c.numPts = exact.numPts then [] else [pointsName c.numPts]) ++
      (switches.filter fun s => !s.2 c).map (·.1) := by
  simp only [changes, List.append_assoc]
  refine congrArg (List.append _) ?_
  obtain ⟨n, rk4, stereo, klt, timewarp⟩ := c
  cases rk4 <;> cases stereo <;> cases klt <;> cases timewarp <;> rfl

theorem mem_changes_iff {name : String} :
    name ∈ c.changes ↔ c.numPts ≠ exact.numPts ∧ name = pointsName c.numPts ∨
      ∃ s ∈ switches, s.2 c = false ∧ s.1 = name := by
  rw [changes_eq, List.mem_append, List.mem_ite_nil_left, List.mem_singleton]
  simp [and_assoc]

theorem head_switch : ∀ s ∈ switches, s.1.toList.head? = some '!' := by
  simp [switches]

theorem switch_ne_pointsName {s : String × (ApproxConfig → Bool)} (hs : s ∈ switches) (n : UInt64) :
    s.1 ≠ pointsName n := by
  intro heq
  have hhead := head_switch s hs
  rw [heq, toList_pointsName] at hhead
  cases hhead

theorem pointsName_mem_changes_iff {n : UInt64} :
    pointsName n ∈ c.changes ↔ c.numPts = n ∧ n ≠ exact.numPts := by
  rw [mem_changes_iff]
  constructor
  · rintro (⟨hne, hname⟩ | ⟨s, hs, -, hname⟩)
    · obtain rfl := pointsName_injective hname
      exact ⟨rfl, hne⟩
    · exact absurd hname (switch_ne_pointsName hs n)
  · rintro ⟨rfl, hne⟩
    exact .inl ⟨hne, rfl⟩

theorem switch_mem_changes_iff {s : String × (ApproxConfig → Bool)} (hs : s ∈ switches) :
    s.1 ∈ c.changes ↔ s.2 c = false := by
  have hnodup : (switches.map (·.1)).Nodup := by simp [switches]
  rw [mem_changes_iff]
  constructor
  · rintro (⟨-, hname⟩ | ⟨t, ht, hoff, hname⟩)
    · exact absurd hname (switch_ne_pointsName hs _)
    · rwa [← List.inj_on_of_nodup_map hnodup ht hs hname]
  · exact fun hoff => .inr ⟨s, hs, hoff, rfl⟩

theorem changes_injective : Function.Injective changes := by
  intro a b h
  have hpoints (n : UInt64) :
      a.numPts = n ∧ n ≠ exact.numPts ↔ b.numPts = n ∧ n ≠ exact.numPts := by
    rw [← pointsName_mem_changes_iff, h, pointsName_mem_changes_iff]
  have hnumPts : a.numPts = b.numPts := by
    by_cases ha : a.numPts = exact.numPts
    · by_contra hne
      exact hne ((hpoints b.numPts).2 ⟨rfl, fun hb => hne (ha.trans hb.symm)⟩).1
    · exact ((hpoints a.numPts).1 ⟨rfl, ha⟩).1.symm
  have hswitch : ∀ s ∈ switches, s.2 a = s.2 b := by
    intro s hs
    have hoff : s.2 a = false ↔ s.2 b = false := by
      rw [← switch_mem_changes_iff hs, h, switch_mem_changes_iff hs]
    simpa using not_congr hoff
  simp only [switches, List.forall_mem_cons] at hswitch
  obtain ⟨hrk4, hstereo, hklt, htimewarp, -⟩ := hswitch
  cases a
  cases b
  simp_all

/-! ## Labels taken apart -/

def named (c : ApproxConfig) : List String := if c.changes.isEmpty then ["exact"] else c.changes

theorem label_eq (c : ApproxConfig) : c.label = String.intercalate "," c.named := by
  rw [label, named]
  split
  · rw [String.intercalate_singleton]
  · rfl

theorem named_ne_nil (c : ApproxConfig) : c.named ≠ [] := by
  rw [named]
  split <;> simp_all

theorem mem_named {name : String} (h : name ∈ c.named) :
    name = "exact" ∨ (∃ n, name = pointsName n) ∨ ∃ s ∈ switches, s.1 = name := by
  rw [named] at h
  split at h
  · exact .inl (List.mem_singleton.1 h)
  · rcases mem_changes_iff.1 h with ⟨-, hname⟩ | ⟨s, hs, -, hname⟩
    · exact .inr (.inl ⟨_, hname⟩)
    · exact .inr (.inr ⟨s, hs, hname⟩)

theorem comma_not_mem_of_mem_named {name : String} (h : name ∈ c.named) : ',' ∉ name.toList := by
  rcases mem_named h with rfl | ⟨n, rfl⟩ | ⟨s, hs, rfl⟩
  · decide
  · rw [toList_pointsName, Decimal.toString_eq_ofList, String.toList_ofList, List.mem_append]
    rintro (hcomma | hcomma)
    · exact absurd hcomma (by decide)
    · exact absurd (Decimal.isDigit_of_mem_toDigits hcomma) (by decide)
  · have hplain : ∀ t ∈ switches, ',' ∉ t.1.toList := by simp [switches]
    exact hplain s hs

theorem splitOn_label (c : ApproxConfig) :
    c.label.toList.splitOn ',' = c.named.map String.toList := by
  rw [label_eq, String.toList_intercalate]
  refine List.splitOn_intercalate ',' ?_ (by simpa using c.named_ne_nil)
  intro piece hpiece
  obtain ⟨name, hname, rfl⟩ := List.mem_map.1 hpiece
  exact comma_not_mem_of_mem_named hname

theorem exact_not_mem_changes : "exact" ∉ c.changes := by
  rw [mem_changes_iff]
  rintro (⟨-, hname⟩ | ⟨s, hs, -, hname⟩)
  · have htexts := congrArg String.toList hname
    rw [toList_pointsName] at htexts
    cases htexts
  · have hhead := head_switch s hs
    rw [hname] at hhead
    exact absurd hhead (by decide)

theorem changes_eq_filter_named (c : ApproxConfig) : c.changes = c.named.filter (· ≠ "exact") := by
  rw [named]
  split
  · rename_i hempty
    simpa using hempty
  · refine (List.filter_eq_self.2 fun name hname => ?_).symm
    simpa using fun heq : name = "exact" => exact_not_mem_changes (heq ▸ hname)

theorem label_injective : Function.Injective label := by
  intro a b h
  have hnamed : a.named = b.named := by
    refine List.map_injective_iff.2 (fun _ _ => String.toList_inj.1) ?_
    rw [← splitOn_label, h, splitOn_label]
  refine changes_injective ?_
  rw [changes_eq_filter_named, hnamed, changes_eq_filter_named]

theorem head_label (c : ApproxConfig) :
    ∃ first ∈ ['e', 'p', '!'], c.label.toList.head? = some first := by
  obtain ⟨name, rest, hnamed⟩ := List.exists_cons_of_ne_nil c.named_ne_nil
  have hname : name ∈ c.named := by simp [hnamed]
  have hfirst : ∃ first ∈ ['e', 'p', '!'], name.toList.head? = some first := by
    rcases mem_named hname with rfl | ⟨n, rfl⟩ | ⟨s, hs, rfl⟩
    · exact ⟨'e', by decide, rfl⟩
    · exact ⟨'p', by decide, by rw [toList_pointsName]; rfl⟩
    · exact ⟨'!', by decide, head_switch s hs⟩
  obtain ⟨first, hmem, hhead⟩ := hfirst
  refine ⟨first, hmem, ?_⟩
  rw [label_eq, String.toList_intercalate, hnamed, List.map_cons]
  cases rest with
  | nil => simpa using hhead
  | cons next rest => simp [List.intercalate_cons_cons, List.head?_append, hhead]

/-! ## Environment -/

theorem flag_injective : Function.Injective flag := by
  intro a b h
  cases a <;> cases b <;> simp_all [flag]

theorem envVars_injective : Function.Injective envVars := by
  intro a b h
  simp only [envVars, List.cons.injEq, Prod.mk.injEq, true_and, and_true] at h
  obtain ⟨hnumPts, hrk4, hstereo, hklt, htimewarp⟩ := h
  cases a
  cases b
  congr 1
  · exact Decimal.toString_injective hnumPts
  · exact flag_injective hrk4
  · exact flag_injective hstereo
  · exact flag_injective hklt
  · exact flag_injective htimewarp

end ApproxConfig

namespace RunConfig

variable {α : Type} {spell : α → String} {config : RunConfig α}

/-- Runs that take their poses from the same kind of source, and from the same tracker if that is an
approximate one. -/
structure SameSource (a b : RunConfig α) : Prop where
  groundTruth : a.groundTruth = b.groundTruth
  approx : a.approx = b.approx
  noise : a.noise.isSome = b.noise.isSome

theorem source_cases (h : config.validate = .ok ()) :
    (config.groundTruth = true ∧ config.approx = none ∧ config.noise = none) ∨
      (config.groundTruth = false ∧ (∃ approx, config.approx = some approx) ∧ config.noise = none) ∨
      (config.groundTruth = false ∧ config.approx = none ∧ ∃ noise, config.noise = some noise) := by
  have hsources := validate_eq_ok_iff.1 h
  rw [sources] at hsources
  cases hg : config.groundTruth <;> cases ha : config.approx <;> cases hn : config.noise <;>
    simp_all

section label

theorem label_of_groundTruth (h : config.groundTruth = true) :
    config.label spell = "ground truth" :=
  if_pos h

theorem label_of_approx {approx : ApproxConfig} (hg : config.groundTruth = false)
    (ha : config.approx = some approx) : config.label spell = approx.label := by
  simp [label, hg, ha]

theorem label_of_noise {noise : Noise α} (hg : config.groundTruth = false)
    (ha : config.approx = none) (hn : config.noise = some noise) :
    config.label spell = noise.label spell := by
  simp [label, hg, ha, hn]

theorem head_noise_label (noise : Noise α) : (noise.label spell).toList.head? = some 'n' := by
  simp only [Noise.label, String.append_assoc]
  rw [String.toList_append]
  rfl

end label

theorem head_label_iff (h : config.validate = .ok ()) :
    (config.groundTruth = true ↔ (config.label spell).toList.head? = some 'g') ∧
      (config.noise.isSome = true ↔ (config.label spell).toList.head? = some 'n') := by
  rcases source_cases h with ⟨hg, -, hn⟩ | ⟨hg, ⟨approx, ha⟩, hn⟩ | ⟨hg, ha, noise, hn⟩
  · rw [label_of_groundTruth hg]
    simp [hg, hn]
  · obtain ⟨first, hfirst, hhead⟩ := approx.head_label
    have hother : first ≠ 'g' ∧ first ≠ 'n' := by
      constructor <;> rintro rfl <;> exact absurd hfirst (by decide)
    rw [label_of_approx hg ha, hhead]
    simp [hg, hn, hother]
  · rw [label_of_noise hg ha hn, head_noise_label]
    simp [hg, hn]

theorem approx_isSome (h : config.validate = .ok ()) :
    config.approx.isSome = (!config.groundTruth && !config.noise.isSome) := by
  rcases source_cases h with ⟨hg, ha, hn⟩ | ⟨hg, ⟨_, ha⟩, hn⟩ | ⟨hg, ha, _, hn⟩ <;>
    simp [hg, ha, hn]

theorem label_eq_of_approx (h : config.validate = .ok ()) {approx : ApproxConfig}
    (ha : config.approx = some approx) : config.label spell = approx.label := by
  have hsome := approx_isSome h
  rw [ha, Option.isSome_some, eq_comm, Bool.and_eq_true, Bool.not_eq_true'] at hsome
  exact label_of_approx hsome.1 ha

theorem sameSource_of_label_eq {a b : RunConfig α} (ha : a.validate = .ok ())
    (hb : b.validate = .ok ()) (h : a.label spell = b.label spell) : a.SameSource b := by
  have hground : a.groundTruth = b.groundTruth := by
    rw [Bool.eq_iff_iff, (head_label_iff ha).1, h, (head_label_iff hb).1]
  have hnoise : a.noise.isSome = b.noise.isSome := by
    rw [Bool.eq_iff_iff, (head_label_iff ha).2, h, (head_label_iff hb).2]
  have hsome : a.approx.isSome = b.approx.isSome := by
    rw [approx_isSome ha, hground, hnoise, approx_isSome hb]
  refine ⟨hground, ?_, hnoise⟩
  cases hx : a.approx with
  | none =>
    rw [hx, Option.isSome_none, eq_comm, Option.isSome_eq_false_iff,
      Option.isNone_iff_eq_none] at hsome
    exact hsome.symm
  | some x =>
    obtain ⟨y, hy⟩ := Option.isSome_iff_exists.1 (hsome.symm.trans (by rw [hx]; rfl))
    rw [label_eq_of_approx ha hx, label_eq_of_approx hb hy] at h
    rw [hy, ApproxConfig.label_injective h]

/-- A label tells all knobs of an approximate tracker, as its environment does, and the label of a
valid run tells the kind of its pose source as well, however numbers are spelled. -/
theorem labels_identify :
    Function.Injective ApproxConfig.label ∧ Function.Injective ApproxConfig.envVars ∧
      ∀ {α : Type} (spell : α → String) (a b : RunConfig α), a.validate = .ok () →
        b.validate = .ok () → a.label spell = b.label spell → a.SameSource b :=
  ⟨ApproxConfig.label_injective, ApproxConfig.envVars_injective,
    fun _ _ _ ha hb h => sameSource_of_label_eq ha hb h⟩

def fewPoints : ApproxConfig := ⟨100, false, true, true, true⟩

def captured : RunConfig Float := approximate fewPoints

def uncaptured : RunConfig Float := ⟨false, false, none, some fewPoints, false, 0⟩

theorem labels_identify_fewPoints :
    captured.validate = .ok () ∧ uncaptured.validate = .ok () ∧
      captured.label Float.toString = uncaptured.label Float.toString ∧
      captured.SameSource uncaptured :=
  ⟨rfl, rfl, rfl, labels_identify.2.2 Float.toString captured uncaptured rfl rfl rfl⟩

end RunConfig
end TrackingScore
