import TrackingScore.Proofs.TrajectoryFormats

/-!
Noise in files of one pose a line. Blank lines, comments, white space around tokens and tokens after
the eighth leave the stream as it is; lines are counted with the noise among them, and the first faulty
line decides the error before the order of the poses is looked at.
-/

namespace TrackingScore.Table

open Text.Utf8 (encode)

/-! ## Lines and noise -/

theorem lines_flatMap {texts : List (List UInt8)} (h : ∀ text ∈ texts, Text.ascii '\n' ∉ text)
    (rest : List UInt8) :
    lines (texts.flatMap (· ++ [Text.ascii '\n']) ++ rest) = texts ++ lines rest := by
  induction texts with
  | nil => rfl
  | cons text texts ih =>
    rw [List.flatMap_cons, List.append_assoc, List.append_assoc, List.singleton_append,
      lines_append (h text (by simp)), ih fun other hother => h other (by simp [hother])]
    rfl

/-- A line of text without a pose: white space alone, or a comment. A line that is no text is faulty
even as a comment. -/
inductive IsNoise : List Char → Prop
  | blank {gap : List Char} (h : ∀ c ∈ gap, Text.isBlank c = true) : IsNoise gap
  | comment {gap : List Char} (h : ∀ c ∈ gap, Text.isBlank c = true) (remark : List Char) :
      IsNoise (gap ++ '#' :: remark)

/-- The tokens of a line that is neither blank nor a comment. -/
def StartsPose (tokens : List (List Char)) : Prop :=
  ∃ c token others, tokens = (c :: token) :: others ∧ c ≠ '#'

/-- Lines that give the tokens of poses, among noise; tokens may be put behind the eighth. -/
inductive Renders : List (List (List Char)) → List (List UInt8) → Prop
  | nil : Renders [] []
  | noise {text : List Char} {data : List (List (List Char))} {lines : List (List UInt8)}
      (h : IsNoise text) (hrest : Renders data lines) : Renders data (encode text :: lines)
  | pose {text : List Char} {tokens extra : List (List Char)} {data : List (List (List Char))}
      {lines : List (List UInt8)} (hstart : StartsPose tokens)
      (hextra : extra = [] ∨ 8 ≤ tokens.length) (htext : Text.Spaced (tokens ++ extra) text)
      (hrest : Renders data lines) : Renders (tokens :: data) (encode text :: lines)

theorem exists_renders (texts : List (List Char)) : ∃ data, Renders data (texts.map encode) := by
  induction texts with
  | nil => exact ⟨[], .nil⟩
  | cons text texts ih =>
    obtain ⟨data, hrest⟩ := ih
    obtain ⟨tokens, htext⟩ := Text.exists_spaced text
    cases htext with
    | nil hgap => exact ⟨data, .noise (.blank hgap) hrest⟩
    | @cons gap token rest tokens hgap hsolid hne hend h =>
      obtain ⟨c, token, rfl⟩ := List.exists_cons_of_ne_nil hne
      by_cases hc : c = '#'
      · exact ⟨data, .noise (hc ▸ .comment hgap (token ++ rest)) hrest⟩
      · have htext : Text.Spaced ((c :: token) :: tokens ++ [])
            (gap ++ (c :: token ++ rest)) := by
          rw [List.append_nil]
          exact .cons hgap hsolid hne hend h
        exact ⟨_, .pose ⟨c, token, tokens, rfl, hc⟩ (.inl rfl) htext hrest⟩

section reading

variable {α : Type} [Scalar α] (number : List Char → Option α)

/-! ## One line -/

theorem IsNoise.poseOfLine_eq {text : List Char} (h : IsNoise text) (lineNumber : Nat) :
    poseOfLine number lineNumber (encode text) = .ok none := by
  cases h with
  | blank h =>
    have htrim : Text.trim text = [] := by
      rw [← List.append_nil text, Text.trim_blank_append [] h]
      rfl
    rw [poseOfLine, Text.Utf8.decode_encode]
    simp only [htrim]
  | comment h remark =>
    obtain ⟨rest, hrest⟩ := Text.trim_cons remark (c := '#') (by decide)
    rw [poseOfLine, Text.Utf8.decode_encode]
    simp only [Text.trim_blank_append _ h, hrest]

theorem StartsPose.poseOfLine_eq {tokens : List (List Char)} {text : List Char}
    (h : StartsPose tokens) (htext : Text.Spaced tokens text) (lineNumber : Nat) :
    poseOfLine number lineNumber (encode text) =
      (poseOfTokens number lineNumber tokens).map some := by
  obtain ⟨c, token, others, rfl, hc⟩ := h
  exact Table.poseOfLine_eq number htext.tokens_eq hc lineNumber

theorem poseOfTokens_short {tokens : List (List Char)} (h : tokens.length < 8)
    (lineNumber : Nat) :
    poseOfTokens number lineNumber tokens =
      .error (.ingestion (.shortLine lineNumber tokens.length)) := by
  unfold poseOfTokens
  split
  · simp only [List.length_cons] at h
    omega
  · rfl

theorem poseOfTokens_append {tokens : List (List Char)} (h : 8 ≤ tokens.length)
    (extra : List (List Char)) (lineNumber lineNumber' : Nat) :
    poseOfTokens number lineNumber (tokens ++ extra) = poseOfTokens number lineNumber' tokens := by
  match tokens, h with
  | _ :: _ :: _ :: _ :: _ :: _ :: _ :: _ :: _, _ => rfl

theorem poseOfTokens_eq_ok_iff {tokens extra : List (List Char)}
    (hextra : extra = [] ∨ 8 ≤ tokens.length) (lineNumber lineNumber' : Nat) {pose : Pose α} :
    poseOfTokens number lineNumber (tokens ++ extra) = .ok pose ↔
      poseOfTokens number lineNumber' tokens = .ok pose := by
  by_cases hlong : 8 ≤ tokens.length
  · rw [poseOfTokens_append number hlong]
  · obtain rfl := hextra.resolve_right hlong
    rw [List.append_nil, poseOfTokens_short number (by omega), poseOfTokens_short number (by omega)]
    simp

/-! ## All lines -/

theorem posesOfLines_cons_eq_ok_iff {lineNumber : Nat} {line : List UInt8}
    {lines : List (List UInt8)} {poses : List (Pose α)} :
    posesOfLines number lineNumber (line :: lines) = .ok poses ↔
      ∃ pose? rest, poseOfLine number lineNumber line = .ok pose? ∧
        posesOfLines number (lineNumber + 1) lines = .ok rest ∧ pose?.toList ++ rest = poses := by
  simp only [posesOfLines, bind_eq_ok_iff, pure, Except.pure, Except.ok.injEq]
  constructor
  · rintro ⟨pose?, hpose, rest, hrest, heq⟩
    exact ⟨pose?, rest, hpose, hrest, heq⟩
  · rintro ⟨pose?, rest, hpose, hrest, heq⟩
    exact ⟨pose?, hpose, rest, hrest, heq⟩

/-- The poses are those of the data, in order. The number 1 stands for any: a pose does not depend on
the number of its line. -/
theorem Renders.posesOfLines_eq_ok_iff {data : List (List (List Char))} {lines : List (List UInt8)}
    (h : Renders data lines) (lineNumber : Nat) {poses : List (Pose α)} :
    posesOfLines number lineNumber lines = .ok poses ↔
      List.Forall₂ (fun tokens pose => poseOfTokens number 1 tokens = .ok pose) data poses := by
  induction h generalizing lineNumber poses with
  | nil =>
    rw [List.forall₂_nil_left_iff, posesOfLines, Except.ok.injEq]
    exact eq_comm
  | noise h _ ih =>
    simp only [posesOfLines_cons_eq_ok_iff, h.poseOfLine_eq, ih, Except.ok.injEq,
      exists_and_left, exists_eq_left', Option.toList_none, List.nil_append, exists_eq_right]
  | @pose text tokens extra data lines hstart hextra htext _ ih =>
    have hstart' : StartsPose (tokens ++ extra) := by
      obtain ⟨c, token, others, rfl, hc⟩ := hstart
      exact ⟨c, token, others ++ extra, rfl, hc⟩
    simp only [posesOfLines_cons_eq_ok_iff, hstart'.poseOfLine_eq number htext, map_eq_ok_iff, ih,
      poseOfTokens_eq_ok_iff number hextra lineNumber 1, List.forall₂_cons_left_iff]
    constructor
    · rintro ⟨_, rest, ⟨pose, hpose, rfl⟩, hrest, rfl⟩
      exact ⟨pose, rest, hpose, hrest, rfl⟩
    · rintro ⟨pose, rest, hpose, hrest, rfl⟩
      exact ⟨some pose, rest, ⟨pose, hpose, rfl⟩, hrest, rfl⟩

def ReadUpTo (lines : List (List UInt8)) (count : Nat) : Prop :=
  ∀ j line, j < count → lines[j]? = some line →
    ∃ pose?, poseOfLine number (j + 1) line = .ok pose?

theorem posesOfLines_eq_mapM (lineNumber : Nat) (lines : List (List UInt8)) :
    posesOfLines number lineNumber lines =
      ((lines.zipIdx lineNumber).mapM fun item => poseOfLine number item.2 item.1).map
        (List.flatMap Option.toList) := by
  induction lines generalizing lineNumber with
  | nil => rfl
  | cons line lines ih =>
    rw [posesOfLines, ih, List.zipIdx_cons, List.mapM_cons]
    cases poseOfLine number lineNumber line with
    | error _ => rfl
    | ok pose? =>
      cases (lines.zipIdx (lineNumber + 1)).mapM fun item => poseOfLine number item.2 item.1 <;> rfl

theorem posesOfLines_eq_error_iff {lines : List (List UInt8)} {error : EvalError α} :
    posesOfLines number 1 lines = .error error ↔
      ∃ i line, lines[i]? = some line ∧ poseOfLine number (i + 1) line = .error error ∧
        ReadUpTo number lines i := by
  rw [posesOfLines_eq_mapM, map_eq_error_iff, mapM_eq_error_iff]
  simp only [List.getElem_zipIdx, List.length_zipIdx, Nat.add_comm 1]
  constructor
  · rintro ⟨i, hi, hfail, hbefore⟩
    refine ⟨i, lines[i], List.getElem?_eq_getElem hi, hfail, fun j line hj hline => ?_⟩
    obtain ⟨_, rfl⟩ := List.getElem?_eq_some_iff.1 hline
    exact hbefore j hj
  · rintro ⟨i, line, hline, hfail, hbefore⟩
    obtain ⟨hi, rfl⟩ := List.getElem?_eq_some_iff.1 hline
    exact ⟨i, hi, hfail, fun j hj => hbefore j _ hj (List.getElem?_eq_getElem (hj.trans hi))⟩

theorem Renders.readTrajectory_eq_ok_iff {data : List (List (List Char))} {file : List UInt8}
    (h : Renders data (lines file)) {stream : PoseStream α} :
    readTrajectory number (some file) = .ok stream ↔
      List.Forall₂ (fun tokens pose => poseOfTokens number 1 tokens = .ok pose) data
        stream.toList := by
  change posesOfLines number 1 (lines file) >>= PoseStream.ofPoses = .ok stream ↔ _
  simp only [bind_eq_ok_iff, h.posesOfLines_eq_ok_iff number, PoseStream.ofPoses_eq_ok_iff,
    exists_eq_right']

theorem readTrajectory_eq_error_iff {file : List UInt8} {error : EvalError α} :
    readTrajectory number (some file) = .error error ↔
      (∃ i line, (lines file)[i]? = some line ∧ poseOfLine number (i + 1) line = .error error ∧
        ReadUpTo number (lines file) i) ∨
      ∃ poses, posesOfLines number 1 (lines file) = .ok poses ∧
        PoseStream.ofPoses poses = .error error := by
  change posesOfLines number 1 (lines file) >>= PoseStream.ofPoses = .error error ↔ _
  rw [bind_eq_error_iff, posesOfLines_eq_error_iff]

end reading

/-- Two files of the same data among whatever noise are read as the same stream, if as any. A line of too
few tokens is told by its place among all lines and by its tokens, if no line before it is faulty. A
file is refused with the error of its first faulty line or else because its poses are out of order. -/
theorem readTrajectory_ignores_noise {α : Type} [Scalar α] (number : List Char → Option α)
    (file : List UInt8) :
    (∀ data file', Renders data (lines file) → Renders data (lines file') → ∀ stream,
      (readTrajectory number (some file) = .ok stream ↔
        readTrajectory number (some file') = .ok stream)) ∧
    (∀ i text tokens, (lines file)[i]? = some (encode text) → Text.Spaced tokens text →
      StartsPose tokens → tokens.length < 8 → ReadUpTo number (lines file) i →
      readTrajectory number (some file) =
        .error (.ingestion (.shortLine (i + 1) tokens.length))) ∧
    ∀ error, readTrajectory number (some file) = .error error ↔
      (∃ i line, (lines file)[i]? = some line ∧ poseOfLine number (i + 1) line = .error error ∧
        ReadUpTo number (lines file) i) ∨
      ∃ poses, posesOfLines number 1 (lines file) = .ok poses ∧
        PoseStream.ofPoses poses = .error error := by
  refine ⟨fun data file' h h' stream => ?_, fun i text tokens hline htext hstart hshort hbefore => ?_,
    fun error => readTrajectory_eq_error_iff number⟩
  · rw [h.readTrajectory_eq_ok_iff number, h'.readTrajectory_eq_ok_iff number]
  · refine (readTrajectory_eq_error_iff number).2 (.inl ⟨i, _, hline, ?_, hbefore⟩)
    rw [hstart.poseOfLine_eq number htext, poseOfTokens_short number hshort]
    rfl

def noisyPoses : List UInt8 :=
  encode "# time\n1 0 0 0 0 0 0 1\n \n\t2  0 0 0 0 0 0 1 9\n".toList

def plainPoses : List UInt8 := encode "1 0 0 0 0 0 0 1\n2 0 0 0 0 0 0 1".toList

def shortLines : List UInt8 := encode "# time\n \n1 2 3\n1".toList

theorem lines_noisyPoses :
    lines noisyPoses = [encode "# time".toList, encode "1 0 0 0 0 0 0 1".toList,
        encode " ".toList, encode "\t2  0 0 0 0 0 0 1 9".toList] ∧
      lines plainPoses = [encode "1 0 0 0 0 0 0 1".toList, encode "2 0 0 0 0 0 0 1".toList] ∧
      lines shortLines = [encode "# time".toList, encode " ".toList, encode "1 2 3".toList,
        encode "1".toList] := by
  decide +kernel

theorem readTrajectory_ignores_noise_sample :
    (∀ stream, readTrajectory Decimal.readFloat (some noisyPoses) = .ok stream ↔
      readTrajectory Decimal.readFloat (some plainPoses) = .ok stream) ∧
    (readTrajectory Decimal.readFloat (some plainPoses)).toOption.isSome ∧
    readTrajectory Decimal.readFloat (some shortLines) =
      .error (.ingestion (.shortLine 3 3)) := by
  obtain ⟨hnoisy, hplain, hshort⟩ := lines_noisyPoses
  have hcomment : IsNoise "# time".toList :=
    (by decide : "# time".toList = [] ++ '#' :: " time".toList) ▸ .comment (by simp) _
  have hblank : IsNoise " ".toList := .blank (List.all_eq_true.1 (by decide))
  have hstart (c : Char) (others : List (List Char)) (hc : c ≠ '#') : StartsPose ([c] :: others) :=
    ⟨c, [], others, rfl, hc⟩
  have hspaced {tokens : List (List Char)} {text : List Char} (h : Text.tokens text = tokens) :
      Text.Spaced tokens text := Text.tokens_eq_iff.1 h
  refine ⟨(readTrajectory_ignores_noise Decimal.readFloat noisyPoses).1
      [Text.tokens "1 0 0 0 0 0 0 1".toList, Text.tokens "2 0 0 0 0 0 0 1".toList] _ ?_ ?_,
    by decide +kernel,
    (readTrajectory_ignores_noise Decimal.readFloat shortLines).2.1 2 "1 2 3".toList
      [['1'], ['2'], ['3']] (by rw [hshort]; rfl) (hspaced (by decide)) (hstart '1' _ (by decide))
      (by decide) ?_⟩
  · rw [hnoisy]
    exact .noise hcomment <| .pose (hstart '1' _ (by decide)) (.inl rfl) (hspaced (by decide)) <|
      .noise hblank <| .pose (hstart '2' _ (by decide)) (.inr (by decide))
        (hspaced (by decide : _ = _ ++ [['9']])) .nil
  · rw [hplain]
    exact .pose (hstart '1' _ (by decide)) (.inl rfl) (hspaced (by decide)) <|
      .pose (hstart '2' _ (by decide)) (.inl rfl) (hspaced (by decide)) .nil
  · rw [hshort]
    rintro (_ | _ | j) line hj hline
    · obtain rfl := Option.some.inj hline
      exact ⟨none, hcomment.poseOfLine_eq _ 1⟩
    · obtain rfl := Option.some.inj hline
      exact ⟨none, hblank.poseOfLine_eq _ 2⟩
    · omega

/-- A comment that is no text makes the file unreadable. -/
theorem readTrajectory_wants_text :
    (readTrajectory Decimal.readFloat (some plainPoses)).toOption.isSome ∧
      (readTrajectory Decimal.readFloat
        (some (encode "# caf".toList ++ 0xe9 :: encode ['\n'] ++ plainPoses))).toOption.isNone := by
  decide +kernel

end TrackingScore.Table
