import TrackingScore.Params
import TrackingScore.Proofs.JsonRecord
import TrackingScore.Proofs.WrittenNumber

/-!
Parameters are read back from the text they are written as, and from what is left of it when fields are
taken away, moved or joined by unknown ones: the fields still there keep their values and the others have
their defaults.
-/

namespace TrackingScore

open Json (Reader NumberText Edited draft)
open Json.Reader (DependsOn record_edited readsEdited_field)

variable {α : Type} (format : Json.NumberFormat α)

/-- A number is written as a JSON number that is read as it. -/
def Json.NumberFormat.ReadsBack (x : α) : Prop :=
  ∃ n : NumberText, format.write x = .number n.string ∧ format.read n.numeral = some x

/-! ## Records with some of their fields -/

def Json.inner {τ : Type} (edited : Json) (name : String) (value : τ) (kept : Json → τ) : τ :=
  (edited.member? name).elim value kept

section kept

variable [Scalar α] (put : String → Bool) (folder : String) (edited : Json)

def AlignmentParams.withOnly (p : AlignmentParams α) : AlignmentParams α where
  minDirectionNorm :=
    if put "min_direction_norm" then p.minDirectionNorm else AlignmentParams.default.minDirectionNorm
  parallelTolerance :=
    if put "parallel_tolerance" then p.parallelTolerance else AlignmentParams.default.parallelTolerance

def AlignmentParams.kept (p : AlignmentParams α) : AlignmentParams α := p.withOnly edited.has

def MatchParams.withOnly (p : MatchParams) : MatchParams where
  warmupNs := if put "warmup_ns" then p.warmupNs else MatchParams.default.warmupNs

def MatchParams.kept (p : MatchParams) : MatchParams := p.withOnly edited.has

def ExecutorKind.withOnly : ExecutorKind → ExecutorKind
  | .sequential => .sequential
  | .threadPool threads => .threadPool (if put "num_threads" then threads else none)

def ExecutorKind.kept (e : ExecutorKind) : ExecutorKind := e.withOnly edited.has

def FrameDistanceParams.withOnly (p : FrameDistanceParams α) : FrameDistanceParams α :=
  let default : FrameDistanceParams α := .default folder
  { diagnosticProbability :=
      if put "diagnostic_probability" then p.diagnosticProbability else default.diagnosticProbability
    diagnosticDir := if put "diagnostic_dir" then p.diagnosticDir else default.diagnosticDir
    executor := if put "executor" then p.executor else default.executor
    maxFeatures := if put "max_features" then p.maxFeatures else default.maxFeatures }

def FrameDistanceParams.kept (p : FrameDistanceParams α) : FrameDistanceParams α :=
  { p with executor := edited.inner "executor" p.executor p.executor.kept }.withOnly edited.has folder

def EvalParams.withOnly (p : EvalParams α) : EvalParams α where
  alignment := if put "alignment" then p.alignment else .default
  matching := if put "matching" then p.matching else .default
  frameDistance := if put "frame_distance" then p.frameDistance else .default folder

def EvalParams.kept (p : EvalParams α) : EvalParams α :=
  EvalParams.withOnly edited.has folder
    { alignment := edited.inner "alignment" p.alignment p.alignment.kept
      matching := edited.inner "matching" p.matching p.matching.kept
      frameDistance := edited.inner "frame_distance" p.frameDistance (p.frameDistance.kept folder) }

end kept

def AlignmentParams.numbers (p : AlignmentParams α) : List α :=
  [p.minDirectionNorm, p.parallelTolerance]

def EvalParams.numbers (p : EvalParams α) : List α :=
  p.alignment.numbers ++ [p.frameDistance.diagnosticProbability]

variable {format}

/-! ## Reading them -/

theorem number_of_readsBack {x : α} {value : Json} (h : format.ReadsBack x)
    (hvalue : Edited (format.write x) value) : Reader.number format (draft value) = .ok x := by
  obtain ⟨n, hwrite, hread⟩ := h
  rw [hwrite] at hvalue
  rw [hvalue.eq_of_not_object (by simp)]
  exact Reader.number_draft format hread

section records

variable [Scalar α] {edited : Json}

theorem AlignmentParams.ofDraft_edited {p : AlignmentParams α}
    (h : ∀ x ∈ p.numbers, format.ReadsBack x) (hedited : Edited (p.toJson format) edited) :
    Reader.record format (fields format) default (draft edited) = .ok (p.kept edited) := by
  simp only [numbers, List.forall_mem_cons] at h
  obtain ⟨hnorm, htolerance, -⟩ := h
  refine record_edited format p.withOnly hedited (by simp) rfl (fun put put' heq => ?_) ?_
  · simp only [fields, Reader.field, List.forall_mem_cons] at heq
    simp only [withOnly, heq]
  · simp only [fields, List.forall_mem_cons]
    refine ⟨⟨_, .head _, readsEdited_field (x := p.minDirectionNorm) ?_ ?_⟩,
      ⟨_, .tail _ (.head _), readsEdited_field (x := p.parallelTolerance) ?_ ?_⟩, by simp⟩
    · exact fun value hvalue _ => number_of_readsBack hnorm hvalue
    · simp [withOnly]
    · exact fun value hvalue _ => number_of_readsBack htolerance hvalue
    · simp [withOnly]

omit [Scalar α] in
theorem MatchParams.ofDraft_edited {p : MatchParams} (hedited : Edited p.toJson edited) :
    Reader.record format (fields format) default (draft edited) = .ok (p.kept edited) := by
  refine record_edited format p.withOnly hedited (by simp) rfl (fun put put' heq => ?_) ?_
  · simp only [fields, Reader.field, List.forall_mem_cons] at heq
    simp only [withOnly, heq]
  · simp only [fields, List.forall_mem_cons]
    refine ⟨⟨_, .head _, readsEdited_field (x := p.warmupNs) ?_ ?_⟩, by simp⟩
    · intro value hvalue _
      rw [hvalue.eq_of_not_object (by simp [Json.ofInt64, Json.ofInt])]
      exact Reader.int64_draft format p.warmupNs
    · simp [withOnly]

/-- An executor that still says its kind. What else stands beside it is read in full, so its numbers have
to be readable and its nesting is bounded. -/
structure ExecutorKind.Readable (format : Json.NumberFormat α) (edited : Json) : Prop where
  kind : edited.has "kind" = true
  levels : ∀ member ∈ edited.members, member.2.levels ≤ 124
  numbers : ∀ member ∈ edited.members, Reader.Readable format member.2.spellings

omit [Scalar α] in
theorem ExecutorKind.ofDraft_of_kind {name : String} (tag : Tag) {others : List (String × Json)}
    (hedited : Edited (.object (("kind", .string name) :: others)) edited)
    (hnames : ((("kind", Json.string name) :: others).map Prod.fst).Nodup)
    (h : Readable format edited) (htag : readTag format (draft (.string name)) = .ok tag) :
    ∃ members, edited = .object members ∧
      ofDraft format (draft edited) = readContents format tag (draft edited) := by
  obtain ⟨members, rfl, honce, hkept⟩ := hedited.of_object hnames
  obtain ⟨value, hvalue⟩ := Option.isSome_iff_exists.1 h.kind
  have hmem : ("kind", value) ∈ members := by
    obtain ⟨before, after, rfl, -⟩ := List.lookup_eq_some_iff.1 hvalue
    exact List.mem_append_right _ List.mem_cons_self
  have hsame : value = .string name := (hkept _ _ _ List.mem_cons_self hmem).eq_of_not_object (by simp)
  refine ⟨members, rfl, Reader.tagged_draft (hsame ▸ htag) hmem (honce _ List.mem_cons_self) ?_⟩
  exact fun member hmember _ =>
    Reader.settle_draft member.2 (h.levels member hmember) (h.numbers member hmember)

omit [Scalar α] in
theorem ExecutorKind.ofDraft_edited {e : ExecutorKind} (hedited : Edited e.toJson edited)
    (h : Readable format edited) : ofDraft format (draft edited) = .ok (e.kept edited) := by
  cases e with
  | sequential =>
    obtain ⟨members, rfl, hread⟩ := ofDraft_of_kind .sequential hedited (by simp) h rfl
    rw [hread]
    rfl
  | threadPool threads =>
    obtain ⟨members, hmembers, hread⟩ := ofDraft_of_kind .threadPool hedited (by simp) h rfl
    have hrecord : readContents format .threadPool (draft edited) = Reader.record format
        [Reader.field "num_threads" (Reader.nullable (Reader.uint64 format)) fun n _ => .threadPool n]
        (.threadPool none) (draft edited) := by
      rw [hmembers]
      rfl
    rw [hread, hrecord]
    refine record_edited format (fun put => withOnly put (.threadPool threads)) hedited (by simp) rfl
      (fun put put' heq => ?_) ?_
    · simp only [Reader.field, List.forall_mem_cons] at heq
      simp only [withOnly, heq]
    · simp only [List.forall_mem_cons]
      refine ⟨⟨_, .tail _ (.head _), readsEdited_field (x := threads) ?_ ?_⟩, by simp⟩
      · intro value hvalue _
        rw [hvalue.eq_of_not_object (by cases threads <;> simp [Json.ofOption, Json.ofUInt64, Json.ofInt])]
        cases threads with
        | none => rfl
        | some n =>
          exact Reader.nullable_draft (by simp [Json.ofOption, Json.ofUInt64, Json.ofInt])
            (Reader.uint64_draft format n)
      · simp [withOnly]

theorem FrameDistanceParams.ofDraft_edited {p : FrameDistanceParams α} {folder : String}
    (h : format.ReadsBack p.diagnosticProbability) (hedited : Edited (p.toJson format) edited)
    (hexecutor : ∀ executor, edited.member? "executor" = some executor →
      ExecutorKind.Readable format executor) :
    ofDraft format folder (draft edited) = .ok (p.kept folder edited) := by
  refine record_edited format (fun put => withOnly put folder
    { p with executor := edited.inner "executor" p.executor p.executor.kept })
      hedited (by simp) rfl (fun put put' heq => ?_) ?_
  · simp only [fields, Reader.field, List.forall_mem_cons] at heq
    simp only [withOnly, heq]
  · simp only [fields, List.forall_mem_cons]
    refine ⟨⟨_, .head _, readsEdited_field (x := p.diagnosticProbability) ?_ ?_⟩,
      ⟨_, .tail _ (.head _), readsEdited_field (x := p.diagnosticDir) ?_ ?_⟩,
      ⟨_, .tail _ (.tail _ (.head _)),
        readsEdited_field (x := edited.inner "executor" p.executor p.executor.kept) ?_ ?_⟩,
      ⟨_, .tail _ (.tail _ (.tail _ (.head _))), readsEdited_field (x := p.maxFeatures) ?_ ?_⟩,
      by simp⟩
    · exact fun value hvalue _ => number_of_readsBack h hvalue
    · simp [withOnly]
    · intro value hvalue _
      rw [hvalue.eq_of_not_object (by cases p.diagnosticDir <;> simp [Json.ofOption])]
      cases p.diagnosticDir <;> rfl
    · simp [withOnly]
    · intro value hvalue hmember
      rw [Json.inner, hmember]
      exact ExecutorKind.ofDraft_edited hvalue (hexecutor value hmember)
    · simp [withOnly]
    · intro value hvalue _
      rw [hvalue.eq_of_not_object (by simp [Json.ofUInt64, Json.ofInt])]
      exact Reader.uint64_draft format p.maxFeatures
    · simp [withOnly]

/-- The executor of the frame comparison, if it is still there, still says its kind and can be read in
full. -/
def EvalParams.ExecutorReadable (format : Json.NumberFormat α) (edited : Json) : Prop :=
  ∀ frameDistance executor, edited.member? "frame_distance" = some frameDistance →
    frameDistance.member? "executor" = some executor → ExecutorKind.Readable format executor

theorem EvalParams.ofDraft_edited {p : EvalParams α} {folder : String}
    (h : ∀ x ∈ p.numbers, format.ReadsBack x) (hedited : Edited (p.toJson format) edited)
    (hexecutor : ExecutorReadable format edited) :
    ofDraft format folder (draft edited) = .ok (p.kept folder edited) := by
  obtain ⟨halignment, hprobability⟩ := List.forall_mem_append.1 h
  refine record_edited format (fun put => withOnly put folder
    { alignment := edited.inner "alignment" p.alignment p.alignment.kept
      matching := edited.inner "matching" p.matching p.matching.kept
      frameDistance := edited.inner "frame_distance" p.frameDistance (p.frameDistance.kept folder) })
      hedited (by simp) rfl (fun put put' heq => ?_) ?_
  · simp only [fields, Reader.field, List.forall_mem_cons] at heq
    simp only [withOnly, heq]
  · simp only [fields, List.forall_mem_cons]
    refine ⟨⟨_, .head _,
        readsEdited_field (x := edited.inner "alignment" p.alignment p.alignment.kept) ?_ ?_⟩,
      ⟨_, .tail _ (.head _),
        readsEdited_field (x := edited.inner "matching" p.matching p.matching.kept) ?_ ?_⟩,
      ⟨_, .tail _ (.tail _ (.head _)), readsEdited_field
        (x := edited.inner "frame_distance" p.frameDistance (p.frameDistance.kept folder)) ?_ ?_⟩,
      by simp⟩
    · intro value hvalue hmember
      rw [Json.inner, hmember]
      exact AlignmentParams.ofDraft_edited halignment hvalue
    · simp [withOnly]
    · intro value hvalue hmember
      rw [Json.inner, hmember]
      exact MatchParams.ofDraft_edited hvalue
    · simp [withOnly]
    · intro value hvalue hmember
      rw [Json.inner, hmember]
      exact FrameDistanceParams.ofDraft_edited (hprobability _ (List.mem_singleton_self _)) hvalue
        fun executor => hexecutor value executor hmember
    · simp [withOnly]

/-! ## All of them kept -/

omit [Scalar α] in
theorem ExecutorKind.kept_toJson (e : ExecutorKind) : e.kept e.toJson = e := by
  cases e <;> rfl

theorem AlignmentParams.kept_toJson (p : AlignmentParams α) : p.kept (p.toJson format) = p := rfl

theorem FrameDistanceParams.kept_toJson (p : FrameDistanceParams α) (folder : String) :
    p.kept folder (p.toJson format) = p := by
  have hinner : (p.toJson format).inner "executor" p.executor p.executor.kept = p.executor :=
    p.executor.kept_toJson
  rw [kept, hinner]
  rfl

theorem EvalParams.kept_toJson (p : EvalParams α) (folder : String) :
    p.kept folder (p.toJson format) = p := by
  have hinner : (p.toJson format).inner "frame_distance" p.frameDistance
      (p.frameDistance.kept folder) = p.frameDistance := p.frameDistance.kept_toJson folder
  rw [kept, hinner]
  rfl

end records

/-! ## Written parameters -/

theorem ExecutorKind.readable_toJson (e : ExecutorKind) : Readable format e.toJson := by
  cases e with
  | sequential => exact ⟨rfl, by simp [toJson, Json.members, Json.levels],
      by simp [toJson, Json.members, Json.spellings]⟩
  | threadPool threads =>
    have hthreads : (Json.ofOption Json.ofUInt64 threads).levels = 0 ∧
        Reader.Readable format (Json.ofOption Json.ofUInt64 threads).spellings := by
      cases threads with
      | none => exact ⟨rfl, Reader.readable_nil⟩
      | some n => exact ⟨rfl, Reader.readable_ofUInt64 n⟩
    exact ⟨rfl, by simp [toJson, Json.members, Json.levels, hthreads],
      by simp [toJson, Json.members, Json.spellings, hthreads]⟩

theorem numbers_of_readsBack {x : α} (h : format.ReadsBack x) :
    Json.Numbers (format.write x).spellings := by
  obtain ⟨n, hwrite, -⟩ := h
  rw [hwrite]
  exact Json.numbers_string n

theorem ExecutorKind.numbers_toJson (e : ExecutorKind) : Json.Numbers e.toJson.spellings := by
  cases e with
  | sequential => exact Json.numbers_nil
  | threadPool threads =>
    have hthreads := Json.numbers_ofOption Json.numbers_ofUInt64 threads
    simp [toJson, Json.spellings, Json.spellingsOfMembers, hthreads]

theorem EvalParams.numbers_toJson {p : EvalParams α} (h : ∀ x ∈ p.numbers, format.ReadsBack x) :
    Json.Numbers (p.toJson format).spellings := by
  simp only [numbers, AlignmentParams.numbers, List.forall_mem_append, List.forall_mem_cons] at h
  obtain ⟨⟨hnorm, htolerance, -⟩, hprobability, -⟩ := h
  have hdir := Json.numbers_ofOption Json.numbers_text p.frameDistance.diagnosticDir
  simp [toJson, AlignmentParams.toJson, MatchParams.toJson, FrameDistanceParams.toJson,
    Json.spellings, Json.spellingsOfMembers, numbers_of_readsBack hnorm,
    numbers_of_readsBack htolerance, numbers_of_readsBack hprobability, hdir,
    p.frameDistance.executor.numbers_toJson]

section files

variable [Scalar α] {p : EvalParams α} (folder : String)

omit [Scalar α] in
theorem EvalParams.executorReadable_toJson (p : EvalParams α) :
    ExecutorReadable format (p.toJson format) := by
  intro frameDistance executor hmember hexecutor
  obtain rfl : p.frameDistance.toJson format = frameDistance := Option.some.inj hmember
  obtain rfl : p.frameDistance.executor.toJson = executor := Option.some.inj hexecutor
  exact p.frameDistance.executor.readable_toJson

theorem EvalParams.ofFile_edited {edited : Json} {text gap : List UInt8}
    (h : ∀ x ∈ p.numbers, format.ReadsBack x) (hedited : Edited (p.toJson format) edited)
    (hexecutor : ExecutorReadable format edited) (htext : Json.Spelled edited text)
    (hgap : Json.Space gap) :
    ofFile format folder (some (text ++ gap)) = .ok (p.kept folder edited) := by
  have hread := Json.read_spelled (ofDraft format folder) htext hgap
  rw [ofDraft_edited h hedited hexecutor] at hread
  rw [ofFile, ofText, hread]

theorem EvalParams.ofFile_toText (h : ∀ x ∈ p.numbers, format.ReadsBack x) :
    ofFile format folder (some (Json.bytes (p.toText format))) = .ok p := by
  have htext : Json.Spelled (p.toJson format) (Json.bytes (p.toText format)) :=
    Json.spelled_indentedAt 0 _ (numbers_toJson h)
  have hread := ofFile_edited folder h (.same _) (executorReadable_toJson p) htext Json.space_nil
  rwa [List.append_nil, kept_toJson] at hread

/-- Parameters whose numbers are read back are read back from their text. However a text is edited, by
taking fields away, moving them or adding unknown ones, the fields that are left are kept and the others
have their defaults, if an executor that is left still says its kind and can be read in full. -/
theorem EvalParams.json_edits (h : ∀ x ∈ p.numbers, format.ReadsBack x) :
    ofFile format folder (some (Json.bytes (p.toText format))) = .ok p ∧
      ∀ edited text gap, Edited (p.toJson format) edited → ExecutorReadable format edited →
        Json.Spelled edited text → Json.Space gap →
          ofFile format folder (some (text ++ gap)) = .ok (p.kept folder edited) :=
  ⟨ofFile_toText folder h, fun _ _ _ hedited hexecutor htext hgap =>
    ofFile_edited folder h hedited hexecutor htext hgap⟩

end files

/-! ## Two edits -/

theorem readsBack_binary64 {x : Float} (hfinite : x.isFinite = true)
    (hread : (Json.numeralOf (Decimal.json.text x)).toOption.bind Json.Numeral.toFloat? = some x) :
    Json.binary64.ReadsBack x := by
  obtain ⟨n, htext⟩ := Json.exists_string hfinite
  rw [htext, Json.numeralOf_string] at hread
  exact ⟨n, by rw [← htext]; exact if_pos hfinite, hread⟩

def Json.NumberText.beyond : NumberText :=
  { NumberText.ofInt 1 with exponent := some (Json.ExponentText.ofInt 999) }

namespace EvalParams

def unusual : EvalParams Float :=
  ⟨⟨1e-300, -0.0⟩, ⟨Int64.minValue⟩, ⟨0.1, none, .threadPool (some 18446744073709551615), 3⟩⟩

def unusualEdit : Json :=
  .object [("frame_distance", .object
      [("executor", .object
          [("note", .array [.ofUInt64 7, .null]), ("kind", .string "thread_pool")]),
        ("diagnostic_dir", .null)]),
    ("extra", .number NumberText.beyond.string),
    ("alignment", .object [("parallel_tolerance", .ofFloat (-0.0))])]

theorem readsBack_unusual : ∀ x ∈ unusual.numbers, Json.binary64.ReadsBack x := by
  simp only [numbers, AlignmentParams.numbers, unusual, List.cons_append, List.nil_append,
    List.forall_mem_cons]
  exact ⟨readsBack_binary64 (by decide +kernel) (by decide +kernel),
    readsBack_binary64 (by decide +kernel) (by decide +kernel),
    readsBack_binary64 (by decide +kernel) (by decide +kernel), by simp⟩

theorem edited_unusual : Edited (unusual.toJson Json.binary64) unusualEdit := by
  refine .of_lookup (by decide) (by decide) ?_
  simp only [List.forall_mem_cons]
  refine ⟨?_, ?_, ?_, by simp⟩
  · rintro _ ⟨⟩
    refine .of_lookup (by decide) (by decide) ?_
    simp only [List.forall_mem_cons]
    refine ⟨?_, ?_, by simp⟩
    · rintro _ ⟨⟩
      refine .of_lookup (by decide) (by decide) ?_
      simp only [List.forall_mem_cons]
      refine ⟨?_, ?_, by simp⟩
      · rintro _ ⟨⟩
      · rintro _ ⟨⟩
        exact .same _
    · rintro _ ⟨⟩
      exact .same _
  · rintro _ ⟨⟩
  · rintro _ ⟨⟩
    refine .of_lookup (by decide) (by decide) ?_
    simp only [List.forall_mem_cons]
    refine ⟨?_, by simp⟩
    rintro _ ⟨⟩
    exact .same _

theorem executorReadable_unusual : ExecutorReadable Json.binary64 unusualEdit := by
  rintro _ _ ⟨⟩ ⟨⟩
  refine ⟨rfl, by decide, ?_⟩
  simp [Json.members, Json.spellings, Json.spellingsOfItems, Json.Reader.readable_ofUInt64]

theorem numbers_unusual : Json.Numbers unusualEdit.spellings := by
  simp [unusualEdit, Json.spellings, Json.spellingsOfMembers, Json.spellingsOfItems]

theorem json_edits_unusual :
    ofFile Json.binary64 "pictures" (some (Json.bytes (unusual.toText Json.binary64))) = .ok unusual ∧
      ofFile Json.binary64 "pictures" (some (Json.bytes unusualEdit.compact ++ Json.bytes "\n")) =
        .ok ⟨⟨1e-9, -0.0⟩, ⟨2000000000⟩, ⟨0.005, none, .threadPool none, 500⟩⟩ := by
  obtain ⟨hread, hedits⟩ := json_edits "pictures" readsBack_unusual
  have hkept : unusual.kept "pictures" unusualEdit =
      ⟨⟨1e-9, -0.0⟩, ⟨2000000000⟩, ⟨0.005, none, .threadPool none, 500⟩⟩ := by decide +kernel
  refine ⟨hread, ?_⟩
  rw [hedits unusualEdit _ _ edited_unusual executorReadable_unusual
    (Json.spelled_compact unusualEdit numbers_unusual) (by decide), hkept]

def remark : Json :=
  .object [("frame_distance", .object
    [("executor", .object [("kind", .string "thread_pool"), ("remark", .number NumberText.beyond.string)])])]

theorem edited_remark : Edited ((default "pictures" : EvalParams Float).toJson Json.binary64) remark := by
  refine .of_lookup (by decide) (by decide) ?_
  simp only [List.forall_mem_cons]
  refine ⟨?_, by simp⟩
  rintro _ ⟨⟩
  refine .of_lookup (by decide) (by decide) ?_
  simp only [List.forall_mem_cons]
  refine ⟨?_, by simp⟩
  rintro _ ⟨⟩
  refine .of_lookup (by decide) (by decide) ?_
  simp only [List.forall_mem_cons]
  refine ⟨?_, ?_, by simp⟩
  · rintro _ ⟨⟩
    exact .same _
  · rintro _ ⟨⟩

theorem spelled_remark : Json.Spelled remark (Json.bytes remark.compact) :=
  Json.spelled_compact remark (by simp [remark, Json.spellings, Json.spellingsOfMembers])

theorem readsBack_default :
    ∀ x ∈ (default "pictures" : EvalParams Float).numbers, Json.binary64.ReadsBack x := by
  simp only [numbers, AlignmentParams.numbers, default, List.cons_append, List.nil_append,
    List.forall_mem_cons]
  exact ⟨readsBack_binary64 (by decide +kernel) (by decide +kernel),
    readsBack_binary64 (by decide +kernel) (by decide +kernel),
    readsBack_binary64 (by decide +kernel) (by decide +kernel), by simp⟩

/-- An unknown field of an executor can make the parameters unreadable. -/
theorem json_edits_fails :
    (∀ x ∈ (default "pictures" : EvalParams Float).numbers, Json.binary64.ReadsBack x) ∧
      Edited ((default "pictures" : EvalParams Float).toJson Json.binary64) remark ∧
      Json.Spelled remark (Json.bytes remark.compact) ∧
      ofFile Json.binary64 "pictures" (some (Json.bytes remark.compact)) = .error (.json .malformed) := by
  refine ⟨readsBack_default, edited_remark, spelled_remark, ?_⟩
  have hread := Json.read_spelled (ofDraft Json.binary64 "pictures") spelled_remark Json.space_nil
  rw [List.append_nil] at hread
  rw [ofFile, ofText, hread]
  rfl

end EvalParams
end TrackingScore
