import TrackingScore.Proofs.CsvRoundTrip
import TrackingScore.Proofs.DecimalRoundTrip
import TrackingScore.Proofs.FirstFailure
import TrackingScore.Table.Pose

/-!
One trajectory in three kinds of file. A row of a time and seven number tokens is a line of a pose
table, of a ground truth file, and of a trajectory file with decimal seconds and the real part last.
The three readers give the same stream for the three files, or they all refuse them.
-/

namespace TrackingScore.Table

open Text.Utf8 (encode)

/-! ## Rows and the files they are written to -/

/-- A text in place of a number that every kind of file can hold as it is. A `#` would do no harm,
because the time stands in front. -/
structure Token where
  chars : List Char
  nonempty : chars ≠ []
  plain : ∀ c ∈ chars, Text.isBlank c = false ∧ c ≠ ',' ∧ c ≠ '"'

namespace Token

theorem solid (token : Token) : Text.Solid token.chars := fun c hc => (token.plain c hc).1

theorem unquoted (token : Token) : ',' ∉ token.chars ∧ '"' ∉ token.chars :=
  ⟨fun h => (token.plain _ h).2.1 rfl, fun h => (token.plain _ h).2.2 rfl⟩

def zero : Token := ⟨['0'], by decide, List.forall_mem_singleton.2 (by decide)⟩

def one : Token := ⟨['1'], by decide, List.forall_mem_singleton.2 (by decide)⟩

end Token

structure PoseRow where
  time : Int64
  time_nonneg : 0 ≤ time
  position : Vector3 Token
  orientation : Quaternion Token

namespace PoseRow

def nanoseconds (row : PoseRow) : Nat := row.time.toInt.toNat

theorem toInt_time (row : PoseRow) : row.time.toInt = row.nanoseconds := by
  have h := Int64.le_iff_toInt_le.1 row.time_nonneg
  rw [Int64.toInt_zero] at h
  exact (Int.toNat_of_nonneg h).symm

def numbers (row : PoseRow) : List Token :=
  [row.position.x, row.position.y, row.position.z, row.orientation.w, row.orientation.x,
    row.orientation.y, row.orientation.z]

def fields (row : PoseRow) : List (List Char) :=
  Nat.toDigits 10 row.nanoseconds :: row.numbers.map Token.chars

theorem isDigit_time (row : PoseRow) :
    ∀ c ∈ Nat.toDigits 10 row.nanoseconds, Decimal.isDigit c = true :=
  fun _ => Decimal.isDigit_of_mem_toDigits

def line (row : PoseRow) : Csv.Line where
  fields := row.fields
  solid := by
    refine List.forall_mem_cons.2 ⟨Decimal.solid_of_digits row.isDigit_time, ?_⟩
    exact List.forall_mem_map.2 fun token _ => token.solid
  unquoted := by
    refine List.forall_mem_cons.2 ⟨⟨fun h => ?_, fun h => ?_⟩, ?_⟩
    · exact absurd (row.isDigit_time _ h) (by decide)
    · exact absurd (row.isDigit_time _ h) (by decide)
    · exact List.forall_mem_map.2 fun token _ => token.unquoted
  starts := by
    obtain ⟨c, digits, hdigits⟩ := List.exists_cons_of_ne_nil
      (Nat.toDigits_ne_nil (n := row.nanoseconds) (b := 10))
    have hc : Decimal.isDigit c = true := row.isDigit_time c (by simp [hdigits])
    refine ⟨c, digits, row.numbers.map Token.chars, by rw [fields, hdigits], ?_, ?_⟩
    · exact Nat.lt_of_le_of_lt (Decimal.toNat_of_isDigit hc).2 (by decide)
    · rintro rfl
      exact absurd hc (by decide)

def tokens (row : PoseRow) : List (List Char) :=
  secondsText row.nanoseconds ::
    [row.position.x, row.position.y, row.position.z, row.orientation.x, row.orientation.y,
      row.orientation.z, row.orientation.w].map Token.chars

end PoseRow

def poseHeader : Csv.Line where
  fields := ["timestamp", "position_x", "position_y", "position_z", "orientation_w",
    "orientation_x", "orientation_y", "orientation_z"].map String.toList
  solid := by decide
  unquoted := by decide
  starts := ⟨'t', "imestamp".toList, _, rfl, by decide, by decide⟩

def poseTable (rows : List PoseRow) : List UInt8 :=
  encode (poseHeader.text ++ (rows.map PoseRow.line).flatMap Csv.Line.text)

def groundTruthFile (comments : List Csv.Comment) (rows : List PoseRow) : List UInt8 :=
  encode (comments.flatMap Csv.Comment.text ++ (rows.map PoseRow.line).flatMap Csv.Line.text)

def trajectoryFile (comments : List Csv.Comment) (rows : List PoseRow) : List UInt8 :=
  encode (comments.flatMap Csv.Comment.text ++
    rows.flatMap fun row => List.intercalate [' '] row.tokens ++ ['\n'])

def halfTurn : PoseRow where
  time := 1000000001
  time_nonneg := by decide
  position := ⟨.one, .zero, .zero⟩
  orientation := ⟨.zero, .zero, .zero, .one⟩

example : halfTurn.line.text = "1000000001,1,0,0,0,0,0,1\n".toList ∧
    List.intercalate [' '] halfTurn.tokens = "1.000000001 1 0 0 0 0 1 0".toList := by
  decide

/-! ## Computations that fail by a malformed input -/

section failing

variable {α β γ : Type}

def FailsByInput (x : Except (EvalError α) β) : Prop :=
  ∀ error, x = .error error → ∃ fault, error = .ingestion fault

theorem failsByInput_ok (b : β) : FailsByInput (.ok b : Except (EvalError α) β) :=
  fun _ h => nomatch h

theorem failsByInput_ingestion (fault : IngestionFault α) :
    FailsByInput (.error (.ingestion fault) : Except (EvalError α) β) := by
  rintro _ ⟨⟩
  exact ⟨fault, rfl⟩

theorem FailsByInput.bind {x : Except (EvalError α) β}
    {f : β → Except (EvalError α) γ} (hx : FailsByInput x) (hf : ∀ b, FailsByInput (f b)) :
    FailsByInput (x >>= f) := by
  intro error h
  rcases bind_eq_error_iff.1 h with h | ⟨b, -, h⟩
  · exact hx error h
  · exact hf b error h

theorem FailsByInput.mapM {f : β → Except (EvalError α) γ} (items : List β)
    (hf : ∀ b, FailsByInput (f b)) : FailsByInput (items.mapM f) := by
  intro error h
  obtain ⟨i, hi, hfail, -⟩ := mapM_eq_error_iff.1 h
  exact hf items[i] error hfail

theorem FailsByInput.vector_mapM {f : β → Except (EvalError α) γ} (v : Vector3 β)
    (hf : ∀ b, FailsByInput (f b)) : FailsByInput (v.mapM f) :=
  (hf v.x).bind fun _ => (hf v.y).bind fun _ => (hf v.z).bind fun _ => failsByInput_ok _

theorem FailsByInput.quaternion_mapM {f : β → Except (EvalError α) γ} (q : Quaternion β)
    (hf : ∀ b, FailsByInput (f b)) : FailsByInput (q.mapM f) :=
  (hf q.w).bind fun _ => (hf q.x).bind fun _ => (hf q.y).bind fun _ => (hf q.z).bind fun _ =>
    failsByInput_ok _

theorem failsByInput_ofPoses (poses : List (Pose α)) :
    FailsByInput (PoseStream.ofPoses poses) := by
  rw [PoseStream.ofPoses]
  split
  · exact failsByInput_ok _
  · exact failsByInput_ingestion _

theorem vector_mapM_eq_ok_iff {f : β → Except (EvalError α) γ} {v : Vector3 β}
    {w : Vector3 γ} :
    v.mapM f = .ok w ↔ f v.x = .ok w.x ∧ f v.y = .ok w.y ∧ f v.z = .ok w.z := by
  simp only [Vector3.mapM, bind_eq_ok_iff]
  constructor
  · rintro ⟨x, hx, y, hy, z, hz, hw⟩
    cases hw
    exact ⟨hx, hy, hz⟩
  · rintro ⟨hx, hy, hz⟩
    exact ⟨w.x, hx, w.y, hy, w.z, hz, rfl⟩

theorem quaternion_mapM_eq_ok_iff {f : β → Except (EvalError α) γ} {q : Quaternion β}
    {r : Quaternion γ} :
    q.mapM f = .ok r ↔
      f q.w = .ok r.w ∧ f q.x = .ok r.x ∧ f q.y = .ok r.y ∧ f q.z = .ok r.z := by
  simp only [Quaternion.mapM, bind_eq_ok_iff]
  constructor
  · rintro ⟨w, hw, x, hx, y, hy, z, hz, hr⟩
    cases hr
    exact ⟨hw, hx, hy, hz⟩
  · rintro ⟨hw, hx, hy, hz⟩
    exact ⟨r.w, hw, r.x, hx, r.y, hy, r.z, hz, rfl⟩

end failing

section reading

variable {α : Type} (number : List Char → Option α)

def readToken (token : Token) : Except (EvalError α) α := readNumber number token.chars

theorem failsByInput_readToken (token : Token) : FailsByInput (readToken number token) := by
  rw [readToken, readNumber]
  split
  · exact failsByInput_ok _
  · exact failsByInput_ingestion _

variable [Scalar α]

def PoseRow.pose (row : PoseRow) : Except (EvalError α) (Pose α) := do
  let position ← row.position.mapM (readToken number)
  let orientation ← row.orientation.mapM (readToken number)
  Pose.ofPrinted row.time position orientation

/-! ## Rows with commas -/

theorem poseOfRecord_line (row : PoseRow) (position : Csv.Position) :
    poseOfRecord number leadingColumns ⟨position, row.line.fields⟩ = row.pose number := by
  change (readTimestamp number (Nat.toDigits 10 row.nanoseconds) >>= fun timestamp => _) = _
  rw [readTimestamp_toDigits number row.toInt_time]
  rfl

theorem mapM_withRecord {rows : List PoseRow} {records : List (Except CsvFault Csv.Record)}
    (h : List.Forall₂ Csv.Line.Reads (rows.map PoseRow.line) records) :
    records.mapM (withRecord (poseOfRecord number leadingColumns)) =
      rows.mapM (PoseRow.pose number) := by
  refine (mapM_eq_mapM ((List.forall₂_map_left_iff.1 h).imp ?_)).symm
  rintro row _ ⟨position, rfl⟩
  exact (poseOfRecord_line number row position).symm

theorem readPoses_poseTable (rows : List PoseRow) :
    readPoses number (some (poseTable rows)) =
      rows.mapM (PoseRow.pose number) >>= PoseStream.ofPoses := by
  have hwidth : ∀ line ∈ rows.map PoseRow.line,
      line.fields.length = poseHeader.fields.length :=
    List.forall_mem_map.2 fun _ _ => rfl
  obtain ⟨records, htable, hrecords⟩ :=
    Csv.Table.ofBytes_lines poseHeader (rows.map PoseRow.line) hwidth
  rw [← mapM_withRecord number hrecords, readPoses, poseTable, htable]
  rfl

theorem readGroundTruth_groundTruthFile (comments : List Csv.Comment) (rows : List PoseRow) :
    readGroundTruth number (some (groundTruthFile comments rows)) =
      rows.mapM (PoseRow.pose number) >>= PoseStream.ofPoses := by
  have hrecords := Csv.recordsWithComments_lines comments (rows.map PoseRow.line)
  rw [← mapM_withRecord number hrecords]
  rfl

/-! ## Lines of tokens -/

def PoseRow.poseRealLast (row : PoseRow) : Except (EvalError α) (Pose α) := do
  let position ← row.position.mapM (readToken number)
  let imaginary ← Vector3.mapM (readToken number)
    ⟨row.orientation.x, row.orientation.y, row.orientation.z⟩
  let real ← readToken number row.orientation.w
  Pose.ofPrinted row.time position ⟨real, imaginary.x, imaginary.y, imaginary.z⟩

theorem lines_append {line : List UInt8} (h : Text.ascii '\n' ∉ line) (rest : List UInt8) :
    lines (line ++ Text.ascii '\n' :: rest) = line :: lines rest := by
  induction line with
  | nil => rfl
  | cons b line ih =>
    have hb : b ≠ Text.ascii '\n' := fun hb => h (by simp [hb])
    rw [List.cons_append, lines, if_neg hb, ih fun hmem => h (List.mem_cons_of_mem _ hmem)]

theorem lines_encode {text : List Char} (h : '\n' ∉ text) (rest : List Char) :
    lines (encode (text ++ ['\n'] ++ rest)) = encode text :: lines (encode rest) := by
  have hbytes : Text.ascii '\n' ∉ encode text := fun hmem =>
    h ((Text.Utf8.ascii_mem_encode_iff (by decide)).1 hmem)
  rw [Text.Utf8.encode_append, Text.Utf8.encode_append, List.append_assoc]
  exact lines_append hbytes (encode rest)

theorem PoseRow.solid_tokens (row : PoseRow) :
    ∀ token ∈ row.tokens, Text.Solid token ∧ token ≠ [] := by
  refine List.forall_mem_cons.2 ⟨⟨solid_secondsText _, by simp [secondsText]⟩, ?_⟩
  exact List.forall_mem_map.2 fun token _ => ⟨token.solid, token.nonempty⟩

theorem exists_digit_secondsText (nanoseconds : Nat) :
    ∃ c rest, secondsText nanoseconds = c :: rest ∧ Decimal.isDigit c = true := by
  obtain ⟨c, digits, hdigits⟩ := List.exists_cons_of_ne_nil
    (Nat.toDigits_ne_nil (n := nanoseconds / 1000000000) (b := 10))
  have hmem : c ∈ Nat.toDigits 10 (nanoseconds / 1000000000) := by simp [hdigits]
  exact ⟨c, _, by rw [secondsText, hdigits]; rfl, Decimal.isDigit_of_mem_toDigits hmem⟩

theorem poseOfTokens_tokens (lineNumber : Nat) (row : PoseRow) :
    poseOfTokens number lineNumber row.tokens = row.poseRealLast number := by
  change (readSeconds number (secondsText row.nanoseconds) >>= fun timestamp => _) = _
  rw [readSeconds_secondsText number row.toInt_time]
  rfl

theorem poseOfLine_eq {text : List Char} {c : Char} {token : List Char} {others : List (List Char)}
    (htokens : Text.tokens text = (c :: token) :: others) (hc : c ≠ '#') (lineNumber : Nat) :
    poseOfLine number lineNumber (encode text) =
      (poseOfTokens number lineNumber ((c :: token) :: others)).map some := by
  rw [poseOfLine, Text.Utf8.decode_encode]
  have htrim : Text.tokens (Text.trim text) = (c :: token) :: others := by
    rw [Text.tokens_trim, htokens]
  dsimp only
  split
  · rename_i hnil
    rw [hnil] at htrim
    cases htrim
  · rename_i hmark
    obtain ⟨first, rest, hfirst⟩ := Text.tokens_of_trim_eq_cons hmark
    rw [htokens] at hfirst
    exact absurd (List.cons.inj (List.cons.inj hfirst).1).1 hc
  · rw [htrim]

theorem poseOfLine_tokens (lineNumber : Nat) (row : PoseRow) :
    poseOfLine number lineNumber (encode (List.intercalate [' '] row.tokens)) =
      (row.poseRealLast number).map some := by
  obtain ⟨c, rest, hfirst, hc⟩ := exists_digit_secondsText row.nanoseconds
  have htokens := Text.tokens_intercalate row.solid_tokens
  have hne : c ≠ '#' := fun heq => absurd (heq ▸ hc) (by decide)
  rw [← poseOfTokens_tokens number lineNumber row]
  rw [PoseRow.tokens, hfirst] at htokens ⊢
  exact poseOfLine_eq number htokens hne lineNumber

theorem poseOfLine_comment (lineNumber : Nat) (remark : List Char) :
    poseOfLine number lineNumber (encode ('#' :: remark)) = .ok none := by
  obtain ⟨rest, hrest⟩ := Text.trim_cons remark (c := '#') (by decide)
  rw [poseOfLine, Text.Utf8.decode_encode]
  simp only [hrest]

theorem posesOfLines_comments (lineNumber : Nat) (comments : List Csv.Comment) (rest : List Char) :
    posesOfLines number lineNumber
        (lines (encode (comments.flatMap Csv.Comment.text ++ rest))) =
      posesOfLines number (lineNumber + comments.length) (lines (encode rest)) := by
  induction comments generalizing lineNumber with
  | nil => rfl
  | cons comment comments ih =>
    have hsingle : '\n' ∉ '#' :: comment.remark := by simp [comment.single]
    rw [List.flatMap_cons, List.append_assoc, Csv.Comment.text, lines_encode hsingle, posesOfLines,
      poseOfLine_comment, ih, List.length_cons, Nat.add_assoc, Nat.add_comm 1]
    -- What is left puts no pose in front of the others.
    cases posesOfLines number _ (lines (encode rest)) <;> rfl

theorem posesOfLines_tokens (lineNumber : Nat) (rows : List PoseRow) :
    posesOfLines number lineNumber (lines (encode
        (rows.flatMap fun row => List.intercalate [' '] row.tokens ++ ['\n']))) =
      rows.mapM (PoseRow.poseRealLast number) := by
  induction rows generalizing lineNumber with
  | nil => rfl
  | cons row rows ih =>
    have hsingle : '\n' ∉ List.intercalate [' '] row.tokens :=
      Text.not_mem_intercalate (by decide) fun token htoken hmem =>
        absurd ((row.solid_tokens token htoken).1 '\n' hmem) (by decide)
    rw [List.flatMap_cons, lines_encode hsingle, posesOfLines, poseOfLine_tokens, ih,
      List.mapM_cons]
    cases row.poseRealLast number with
    | error _ => rfl
    | ok _ => cases rows.mapM (PoseRow.poseRealLast number) <;> rfl

theorem readTrajectory_trajectoryFile (comments : List Csv.Comment) (rows : List PoseRow) :
    readTrajectory number (some (trajectoryFile comments rows)) =
      rows.mapM (PoseRow.poseRealLast number) >>= PoseStream.ofPoses := by
  rw [← posesOfLines_tokens number (1 + comments.length) rows, ← posesOfLines_comments]
  rfl

/-! ## Outcomes -/

/-- The order in which the parts of a quaternion are read says which fault is reported, and nothing
else. -/
theorem poseRealLast_eq_ok_iff {row : PoseRow} {pose : Pose α} :
    row.poseRealLast number = .ok pose ↔ row.pose number = .ok pose := by
  simp only [PoseRow.poseRealLast, PoseRow.pose, bind_eq_ok_iff, vector_mapM_eq_ok_iff,
    quaternion_mapM_eq_ok_iff]
  constructor
  · rintro ⟨position, hposition, imaginary, ⟨hx, hy, hz⟩, real, hw, hpose⟩
    exact ⟨position, hposition, ⟨real, imaginary.x, imaginary.y, imaginary.z⟩,
      ⟨hw, hx, hy, hz⟩, hpose⟩
  · rintro ⟨position, hposition, orientation, ⟨hw, hx, hy, hz⟩, hpose⟩
    exact ⟨position, hposition, orientation.imaginary, ⟨hx, hy, hz⟩, orientation.w, hw, hpose⟩

theorem failsByInput_ofPrinted (timestamp : Int64) (position : Vector3 α)
    (orientation : Quaternion α) : FailsByInput (Pose.ofPrinted timestamp position orientation) := by
  simp only [Pose.ofPrinted, Pose.ofUnnormalized]
  split_ifs
  · exact failsByInput_ingestion _
  · exact failsByInput_ingestion _
  · exact failsByInput_ingestion _
  · exact failsByInput_ok _

theorem failsByInput_pose (row : PoseRow) : FailsByInput (row.pose number) :=
  .bind (.vector_mapM _ (failsByInput_readToken number)) fun _ =>
    .bind (.quaternion_mapM _ (failsByInput_readToken number)) fun _ =>
      failsByInput_ofPrinted _ _ _

theorem failsByInput_poseRealLast (row : PoseRow) : FailsByInput (row.poseRealLast number) :=
  .bind (.vector_mapM _ (failsByInput_readToken number)) fun _ =>
    .bind (.vector_mapM _ (failsByInput_readToken number)) fun _ =>
      .bind (failsByInput_readToken number _) fun _ => failsByInput_ofPrinted _ _ _

/-- Whether a stream has the poses of the rows, one for each row and in their order. -/
def Tells (rows : List PoseRow) (stream : PoseStream α) : Prop :=
  List.Forall₂ (fun row pose => PoseRow.pose number row = .ok pose) rows stream.toList

theorem poses_eq_ok_iff {rows : List PoseRow} {stream : PoseStream α} :
    rows.mapM (PoseRow.pose number) >>= PoseStream.ofPoses = .ok stream ↔
      Tells number rows stream := by
  simp only [bind_eq_ok_iff, mapM_eq_ok_iff, PoseStream.ofPoses_eq_ok_iff, exists_eq_right']
  rfl

theorem posesRealLast_eq_ok_iff {rows : List PoseRow} {stream : PoseStream α} :
    rows.mapM (PoseRow.poseRealLast number) >>= PoseStream.ofPoses = .ok stream ↔
      Tells number rows stream := by
  simp only [bind_eq_ok_iff, mapM_eq_ok_iff, PoseStream.ofPoses_eq_ok_iff, poseRealLast_eq_ok_iff,
    exists_eq_right']
  rfl

/-- However numbers are read: the three files of a list of rows are read as one stream, the poses of
the rows in order, or no stream has those poses and all three files are refused as malformed, the two
with commas for the same fault. -/
theorem readers_agree (comments : List Csv.Comment) (rows : List PoseRow) :
    (∃ stream, Tells number rows stream ∧
      readPoses number (some (poseTable rows)) = .ok stream ∧
      readGroundTruth number (some (groundTruthFile comments rows)) = .ok stream ∧
      readTrajectory number (some (trajectoryFile comments rows)) = .ok stream) ∨
    ((¬∃ stream, Tells number rows stream) ∧
      ∃ fault fault', readPoses number (some (poseTable rows)) = .error (.ingestion fault) ∧
        readGroundTruth number (some (groundTruthFile comments rows)) =
          .error (.ingestion fault) ∧
        readTrajectory number (some (trajectoryFile comments rows)) =
          .error (.ingestion fault')) := by
  rw [readPoses_poseTable, readGroundTruth_groundTruthFile, readTrajectory_trajectoryFile]
  cases hposes : rows.mapM (PoseRow.pose number) >>= PoseStream.ofPoses with
  | ok stream =>
    have htells := (poses_eq_ok_iff number).1 hposes
    exact .inl ⟨stream, htells, rfl, rfl, (posesRealLast_eq_ok_iff number).2 htells⟩
  | error error =>
    have hnone : ¬∃ stream, Tells number rows stream := by
      rintro ⟨stream, htells⟩
      rw [(poses_eq_ok_iff number).2 htells] at hposes
      cases hposes
    obtain ⟨fault, rfl⟩ := (FailsByInput.mapM rows (failsByInput_pose number)).bind
      failsByInput_ofPoses error hposes
    cases hreal : rows.mapM (PoseRow.poseRealLast number) >>= PoseStream.ofPoses with
    | ok stream => exact absurd ⟨stream, (posesRealLast_eq_ok_iff number).1 hreal⟩ hnone
    | error error' =>
      obtain ⟨fault', rfl⟩ := (FailsByInput.mapM rows (failsByInput_poseRealLast number)).bind
        failsByInput_ofPoses error' hreal
      exact .inr ⟨hnone, fault, fault', rfl, rfl, rfl⟩

end reading

end TrackingScore.Table
