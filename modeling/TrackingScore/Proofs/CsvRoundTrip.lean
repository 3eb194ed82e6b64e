import Mathlib.Data.List.Forall2
import TrackingScore.Csv.Record
import TrackingScore.Proofs.Tokens
import TrackingScore.Proofs.Utf8RoundTrip

/-!
Comma separated rows read back. Rows whose fields need no quotes are written with commas between
the fields and a line feed after the last one; reading gives the same rows in the same order, and
passes over comment lines in front of them.
-/

namespace TrackingScore.Csv

open Text (ascii)

/-! ## Rows of bytes -/

def Plain (field : List UInt8) : Prop :=
  ∀ b ∈ field, b ≠ ascii ',' ∧ b ≠ ascii '"' ∧ isLineEnd b = false

def writeRow (fields : List (List UInt8)) : List UInt8 :=
  List.intercalate [ascii ','] fields ++ [ascii '\n']

theorem writeRow_singleton (field : List UInt8) : writeRow [field] = field ++ [ascii '\n'] := by
  rw [writeRow, List.intercalate_singleton]

theorem writeRow_cons_cons (field next : List UInt8) (fields : List (List UInt8)) :
    writeRow (field :: next :: fields) = field ++ ascii ',' :: writeRow (next :: fields) := by
  simp [writeRow, List.intercalate_cons_cons]

theorem step_plain {b : UInt8} (h : b ≠ ascii ',' ∧ b ≠ ascii '"' ∧ isLineEnd b = false) :
    step .plain b = .keep .plain := by
  simp [step, unquotedStep, h.1, h.2.2]

theorem step_start {b : UInt8} (h : b ≠ ascii '"') : step .start b = step .plain b := by
  rw [step, if_neg h, step]

theorem rowSize_start {b : UInt8} (rest : List UInt8) (h : b ≠ ascii '"') :
    rowSize .start (b :: rest) = rowSize .plain (b :: rest) := by
  rw [rowSize, rowSize, step_start h]

theorem fields_start {b : UInt8} (rest : List UInt8) (h : b ≠ ascii '"') :
    fields .start (b :: rest) = fields .plain (b :: rest) := by
  rw [fields, fields, step_start h]

theorem rowSize_append {field : List UInt8} (h : Plain field) (rest : List UInt8) :
    rowSize .plain (field ++ rest) = field.length + rowSize .plain rest := by
  induction field with
  | nil => simp
  | cons b field ih =>
    rw [List.cons_append, rowSize, step_plain (h b (by simp))]
    simp only [ih fun b hb => h b (by simp [hb]), List.length_cons]
    omega

theorem fields_append {field first : List UInt8} {rest : List UInt8} {others : List (List UInt8)}
    (h : Plain field) (hrest : fields .plain rest = first :: others) :
    fields .plain (field ++ rest) = (field ++ first) :: others := by
  induction field with
  | nil => exact hrest
  | cons b field ih =>
    rw [List.cons_append, fields, step_plain (h b (by simp))]
    simp only [ih fun b hb => h b (by simp [hb]), consByte, List.cons_append]

theorem start_append {field : List UInt8} {b : UInt8} (rest : List UInt8) (h : Plain field)
    (hb : b ≠ ascii '"') :
    rowSize .start (field ++ b :: rest) = field.length + rowSize .plain (b :: rest) ∧
      fields .start (field ++ b :: rest) = fields .plain (field ++ b :: rest) := by
  rw [← rowSize_append h]
  rcases field with _ | ⟨c, field⟩
  · exact ⟨rowSize_start rest hb, fields_start rest hb⟩
  · have hc := (h c (by simp)).2.1
    exact ⟨rowSize_start _ hc, fields_start _ hc⟩

/-- A text that is read as a field, wherever it stands in a row. -/
structure FieldText (text field : List UInt8) : Prop where
  rowSize_comma : ∀ rest,
    rowSize .start (text ++ ascii ',' :: rest) = text.length + (rowSize .start rest + 1)
  rowSize_lineFeed : ∀ rest, rowSize .start (text ++ ascii '\n' :: rest) = text.length + 1
  fields_comma : ∀ rest, fields .start (text ++ ascii ',' :: rest) = field :: fields .start rest
  fields_lineFeed : ∀ rest, fields .start (text ++ ascii '\n' :: rest) = [field]

theorem Plain.fieldText {field : List UInt8} (h : Plain field) : FieldText field field where
  rowSize_comma rest := (start_append rest h (by decide)).1
  rowSize_lineFeed rest := (start_append rest h (by decide)).1
  fields_comma rest := by
    have hcomma : fields .plain (ascii ',' :: rest) = [] :: fields .start rest := rfl
    rw [(start_append rest h (by decide)).2, fields_append h hcomma, List.append_nil]
  fields_lineFeed rest := by
    have hend : fields .plain (ascii '\n' :: rest) = [[]] := rfl
    rw [(start_append rest h (by decide)).2, fields_append h hend, List.append_nil]

theorem rowSize_writeRow {texts row : List (List UInt8)} (h : List.Forall₂ FieldText texts row)
    (hne : texts ≠ []) (rest : List UInt8) :
    rowSize .start (writeRow texts ++ rest) = (writeRow texts).length := by
  induction h with
  | nil => exact absurd rfl hne
  | @cons text field texts row hfield hrow ih =>
    rcases texts with _ | ⟨next, texts⟩
    · rw [writeRow_singleton, List.append_assoc, List.singleton_append,
        hfield.rowSize_lineFeed rest, List.length_append, List.length_singleton]
    · rw [writeRow_cons_cons, List.append_assoc, List.cons_append, hfield.rowSize_comma,
        ih (by simp), List.length_append, List.length_cons]

theorem fields_writeRow {texts row : List (List UInt8)} (h : List.Forall₂ FieldText texts row)
    (hne : texts ≠ []) : fields .start (writeRow texts) = row := by
  induction h with
  | nil => exact absurd rfl hne
  | @cons text field texts row hfield hrow ih =>
    rcases texts with _ | ⟨next, texts⟩
    · rw [writeRow_singleton, hfield.fields_lineFeed [], List.forall₂_nil_left_iff.1 hrow]
    · rw [writeRow_cons_cons, hfield.fields_comma, ih (by simp)]

/-- Bytes that are passed over in front of a row. -/
def Skipped (mark : Option UInt8) (bytes : List UInt8) : Prop :=
  ∀ passed rest, idleSize? mark false passed (bytes ++ rest) =
    idleSize? mark false (passed + bytes.length) rest

theorem skipped_nil (mark : Option UInt8) : Skipped mark [] := fun _ _ => rfl

theorem Skipped.append {mark : Option UInt8} {first second : List UInt8}
    (hfirst : Skipped mark first) (hsecond : Skipped mark second) :
    Skipped mark (first ++ second) := by
  intro passed rest
  rw [List.append_assoc, hfirst, hsecond, List.length_append, Nat.add_assoc]

theorem idleSize?_comment {mark : Option UInt8} {text : List UInt8} (h : ascii '\n' ∉ text)
    (passed : Nat) (rest : List UInt8) :
    idleSize? mark true passed (text ++ ascii '\n' :: rest) =
      idleSize? mark false (passed + text.length + 1) rest := by
  induction text generalizing passed with
  | nil => rfl
  | cons b text ih =>
    have hb : b ≠ ascii '\n' := fun hb => h (by simp [hb])
    have hgoOn : decide (b ≠ ascii '\n') = true := decide_eq_true hb
    rw [List.cons_append, idleSize?, if_pos rfl, hgoOn,
      ih (fun hmem => h (List.mem_cons_of_mem _ hmem)), List.length_cons]
    congr 1
    omega

theorem skipped_comment {mark : UInt8} {text : List UInt8} (hmark : isLineEnd mark = false)
    (h : ascii '\n' ∉ text) : Skipped (some mark) (mark :: text ++ [ascii '\n']) := by
  intro passed rest
  rw [List.append_assoc, List.cons_append, idleSize?, if_neg (by simp), if_neg (by simp [hmark]),
    if_pos rfl, List.singleton_append, idleSize?_comment h]
  congr 1
  simp
  omega

/-- A text that is read as one row: it is not taken for a blank line or a comment, and its fields are
those of the row. -/
structure RowText (mark : Option UInt8) (text : List UInt8) (row : List (List UInt8)) : Prop where
  idleSize : ∀ passed rest, idleSize? mark false passed (text ++ rest) = some passed
  rowSize : ∀ rest, rowSize .start (text ++ rest) = text.length
  fields : fields .start text = row

theorem rowText_writeRow {mark : Option UInt8} {b : UInt8} {text : List UInt8}
    {texts row : List (List UInt8)} (h : List.Forall₂ FieldText ((b :: text) :: texts) row)
    (hend : isLineEnd b = false) (hmark : mark ≠ some b) :
    RowText mark (writeRow ((b :: text) :: texts)) row where
  idleSize passed rest := by
    obtain ⟨more, hmore⟩ : ∃ more, writeRow ((b :: text) :: texts) = b :: more := by
      rcases texts with _ | ⟨next, texts⟩
      · exact ⟨_, writeRow_singleton _⟩
      · exact ⟨_, writeRow_cons_cons _ _ _⟩
    rw [hmore, List.cons_append, idleSize?, if_neg (by simp), if_neg (by simp [hend]), if_neg hmark]
  rowSize := rowSize_writeRow h (by simp)
  fields := fields_writeRow h (by simp)

theorem rowsFrom_rowText {mark : Option UInt8} {skipped text : List UInt8}
    {row : List (List UInt8)} (position : Position) (hskipped : Skipped mark skipped)
    (h : RowText mark text row) (rest : List UInt8) :
    rowsFrom mark position (skipped ++ (text ++ rest)) =
      ⟨position, row⟩ :: rowsFrom mark (position.advance (skipped ++ text)) rest := by
  have hidle : idleSize? mark false 0 (skipped ++ (text ++ rest)) = some skipped.length := by
    rw [hskipped, h.idleSize, Nat.zero_add]
  rw [rowsFrom]
  split
  · rename_i idle heq
    obtain rfl : skipped.length = idle := Option.some.inj (hidle.symm.trans heq)
    simp only [List.drop_left, h.rowSize, List.take_left, h.fields]
    rw [← List.append_assoc, ← List.length_append, List.take_left]
  · rename_i heq
    exact absurd (hidle.symm.trans heq) (by simp)

theorem fields_rowsFrom {mark : Option UInt8} {skipped : List UInt8} {texts : List (List UInt8)}
    {rows : List (List (List UInt8))} (position : Position) (hskipped : Skipped mark skipped)
    (h : List.Forall₂ (RowText mark) texts rows) :
    (rowsFrom mark position (skipped ++ texts.flatten)).map Row.fields = rows := by
  induction h generalizing position skipped with
  | nil =>
    have hidle : idleSize? mark false 0 (skipped ++ []) = none := hskipped 0 []
    rw [List.flatten_nil, rowsFrom]
    split
    · rename_i heq
      exact absurd (hidle.symm.trans heq) (by simp)
    · rfl
  | @cons text row texts rows hrow hrows ih =>
    rw [List.flatten_cons, rowsFrom_rowText position hskipped hrow, List.map_cons]
    have hrest := ih (position.advance (skipped ++ text)) (skipped_nil mark)
    rw [List.nil_append] at hrest
    rw [hrest]

/-! ## Lines of text -/

open Text.Utf8 (encode)

/-- A line that is read as it is written: no field needs quotes, and the line starts with an ASCII
character that makes it neither blank nor a comment. -/
structure Line where
  fields : List (List Char)
  solid : ∀ field ∈ fields, Text.Solid field
  unquoted : ∀ field ∈ fields, ',' ∉ field ∧ '"' ∉ field
  starts : ∃ c first rest, fields = (c :: first) :: rest ∧ c.toNat < 0x80 ∧ c ≠ '#'

def Line.text (line : Line) : List Char := List.intercalate [','] line.fields ++ ['\n']

structure Comment where
  remark : List Char
  single : '\n' ∉ remark

def Comment.text (comment : Comment) : List Char := '#' :: comment.remark ++ ['\n']

theorem Line.encode_text (line : Line) : encode line.text = writeRow (line.fields.map encode) := by
  rw [Line.text, Text.Utf8.encode_append, Text.Utf8.encode_intercalate]
  rfl

theorem plain_encode {field : List Char} (hsolid : Text.Solid field) (hcomma : ',' ∉ field)
    (hquote : '"' ∉ field) : Plain (encode field) := by
  have hnot {a : Char} (ha : a.toNat < 0x80) (hfield : a ∉ field) : ascii a ∉ encode field :=
    fun hmem => hfield ((Text.Utf8.ascii_mem_encode_iff ha).1 hmem)
  have hblank {a : Char} (ha : Text.isBlank a = true) : a ∉ field := fun hmem => by
    simp [hsolid a hmem] at ha
  intro b hb
  refine ⟨?_, ?_, ?_⟩
  · rintro rfl
    exact hnot (by decide) hcomma hb
  · rintro rfl
    exact hnot (by decide) hquote hb
  · refine Bool.eq_false_iff.2 fun hend => ?_
    simp only [isLineEnd, Bool.or_eq_true, decide_eq_true_eq] at hend
    rcases hend with rfl | rfl
    · exact hnot (by decide) (hblank (a := '\r') (by decide)) hb
    · exact hnot (by decide) (hblank (a := '\n') (by decide)) hb

theorem Line.plain (line : Line) : ∀ field ∈ line.fields.map encode, Plain field :=
  List.forall_mem_map.2 fun field hfield =>
    plain_encode (line.solid field hfield) (line.unquoted field hfield).1
      (line.unquoted field hfield).2

theorem Line.rowText {mark : Option UInt8} (hmark : mark = none ∨ mark = some (ascii '#'))
    (line : Line) : RowText mark (encode line.text) (line.fields.map encode) := by
  obtain ⟨c, first, rest, hfields, hascii, hc⟩ := line.starts
  have hbytes : line.fields.map encode = (ascii c :: encode first) :: rest.map encode := by
    rw [hfields, List.map_cons, Text.Utf8.encode_cons, Text.Utf8.encodeChar_ascii hascii]
    rfl
  have hplain := line.plain
  rw [line.encode_text]
  rw [hbytes] at hplain ⊢
  have hstart := hplain (ascii c :: encode first) List.mem_cons_self (ascii c) List.mem_cons_self
  refine rowText_writeRow (List.forall₂_same.2 fun field hfield => (hplain field hfield).fieldText)
    hstart.2.2 ?_
  rcases hmark with rfl | rfl
  · simp
  · intro hsame
    have hcode := congrArg UInt8.toNat (Option.some.inj hsame)
    rw [Text.Utf8.toNat_ascii hascii, Text.Utf8.toNat_ascii (by decide)] at hcode
    exact hc (Char.toNat_inj.1 hcode).symm

theorem Comment.skipped (comment : Comment) :
    Skipped (some (ascii '#')) (encode comment.text) := by
  have hsingle : ascii '\n' ∉ encode comment.remark := fun hmem =>
    comment.single ((Text.Utf8.ascii_mem_encode_iff (by decide)).1 hmem)
  have htext : encode comment.text = ascii '#' :: encode comment.remark ++ [ascii '\n'] := by
    rw [Comment.text, List.cons_append, Text.Utf8.encode_cons, Text.Utf8.encode_append]
    rfl
  rw [htext]
  exact skipped_comment (by decide) hsingle

theorem decodeFields_encode (position : Position) (index : Nat) (texts : List (List Char)) :
    decodeFields position index (texts.map encode) = .ok (texts.map Text.trim) := by
  induction texts generalizing index with
  | nil => rfl
  | cons text texts ih =>
    simp only [List.map_cons, decodeFields, Text.Utf8.decode_encode, ih]
    rfl

theorem exists_dropWhile_encode (text : List Char) :
    ∃ rest, (encode text).dropWhile Text.isSpaceByte = encode rest ∧
      Text.trim rest = Text.trim text := by
  induction text with
  | nil => exact ⟨[], rfl, rfl⟩
  | cons c text ih =>
    by_cases hspace : ∃ b, Text.isSpaceByte b = true ∧ b ∈ Text.Utf8.encodeChar c
    · obtain ⟨b, hb, hmem⟩ := hspace
      obtain ⟨rest, hrest, htrim⟩ := ih
      refine ⟨rest, ?_, htrim.trans (Text.trim_blank_cons text ?_).symm⟩
      · rw [Text.Utf8.encode_cons, Text.Utf8.encodeChar_of_isSpaceByte hb hmem, ← hrest]
        exact List.dropWhile_cons_of_pos hb
      · exact Text.Utf8.isBlank_of_isSpaceByte hb hmem
    · obtain ⟨b, tail, hbytes⟩ :=
        List.exists_cons_of_ne_nil (Text.Utf8.encodeChar_ne_nil c)
      refine ⟨c :: text, ?_, rfl⟩
      rw [Text.Utf8.encode_cons, hbytes]
      exact List.dropWhile_cons_of_neg fun hb => hspace ⟨b, hb, by simp [hbytes]⟩

def AreTexts (fields : List (List UInt8)) : Prop :=
  ∃ texts : List (List Char), texts.map encode = fields

theorem AreTexts.drop {fields : List (List UInt8)} (h : AreTexts fields) (count : Nat) :
    AreTexts (fields.drop count) := by
  obtain ⟨texts, rfl⟩ := h
  exact ⟨texts.drop count, List.map_drop⟩

theorem exists_map_dropWhile_encode (texts : List (List Char)) :
    ∃ rest : List (List Char), (texts.map encode).map (List.dropWhile Text.isSpaceByte) =
      rest.map encode ∧ rest.map Text.trim = texts.map Text.trim := by
  choose rest hbytes htrim using exists_dropWhile_encode
  refine ⟨texts.map rest, ?_, ?_⟩
  · rw [List.map_map, List.map_map]
    exact List.map_congr_left fun text _ => hbytes text
  · rw [List.map_map]
    exact List.map_congr_left fun text _ => htrim text

theorem areTexts_drop_strip {row : Row} {count : Nat} (h : AreTexts (row.fields.drop count)) :
    AreTexts (row.strip.fields.drop count) := by
  obtain ⟨texts, htexts⟩ := h
  obtain ⟨rest, hrest, -⟩ := exists_map_dropWhile_encode texts
  exact ⟨rest, by rw [← hrest, htexts, Row.strip, List.map_drop]⟩

theorem decodeFields_take (position : Position) (index : Nat) {count : Nat}
    {fields : List (List UInt8)} (h : AreTexts (fields.drop count)) :
    (decodeFields position index fields).map (List.take count) =
      decodeFields position index (fields.take count) := by
  induction count generalizing index fields with
  | zero =>
    obtain ⟨texts, rfl⟩ := h
    rw [decodeFields_encode]
    rfl
  | succ count ih =>
    rcases fields with _ | ⟨field, fields⟩
    · rfl
    · simp only [List.take_succ_cons, decodeFields]
      split
      · rfl
      · rw [← ih (index + 1) h]
        cases decodeFields position (index + 1) fields <;> rfl

theorem decode_eq {row : Row} {texts : List (List Char)} (h : row.fields = texts.map encode) :
    row.decode = .ok ⟨row.position, texts.map Text.trim⟩ := by
  rw [Row.decode, h, decodeFields_encode]
  rfl

theorem decode_strip {row : Row} {texts : List (List Char)} (h : row.fields = texts.map encode) :
    row.strip.decode = .ok ⟨row.position, texts.map Text.trim⟩ := by
  obtain ⟨rest, hbytes, htrim⟩ := exists_map_dropWhile_encode texts
  have hstrip : row.strip.fields = rest.map encode := by rw [Row.strip, h, hbytes]
  rw [decode_eq hstrip, htrim]
  rfl

theorem Line.map_trim (line : Line) : line.fields.map Text.trim = line.fields :=
  (List.map_congr_left fun field hfield => Text.trim_of_solid (line.solid field hfield)).trans
    (List.map_id _)

theorem rows_encode {mark : Option UInt8} {cs : List Char} (h : ∀ c ∈ cs.head?, c.toNat < 0x80) :
    rows mark (encode cs) = rowsFrom mark ⟨0, 1, 0⟩ (encode cs) := by
  unfold rows
  split
  · rename_i rest heq
    rcases cs with _ | ⟨c, cs⟩
    · cases heq
    · have hc : c.toNat < 0x80 := h c rfl
      rw [Text.Utf8.encode_cons, Text.Utf8.encodeChar_ascii hc] at heq
      rw [← Text.Utf8.toNat_ascii hc, (List.cons.inj heq).1] at hc
      exact absurd hc (by decide)
  · rfl

theorem Line.head?_text (line : Line) (rest : List Char) :
    ∀ c ∈ (line.text ++ rest).head?, c.toNat < 0x80 := by
  obtain ⟨c, first, others, hfields, hascii, -⟩ := line.starts
  have hhead : (line.text ++ rest).head? = some c := by
    rw [Line.text, hfields]
    rcases others with _ | ⟨next, others⟩
    · rw [List.intercalate_singleton]
      rfl
    · rw [List.intercalate_cons_cons]
      rfl
  rintro d hd
  rw [hhead] at hd
  cases hd
  exact hascii

def Line.Reads (line : Line) (record : Except CsvFault Record) : Prop :=
  ∃ position, record = .ok ⟨position, line.fields⟩

theorem forall₂_rowsFrom {mark : Option UInt8} (hmark : mark = none ∨ mark = some (ascii '#'))
    {skipped : List UInt8} (position : Position) (hskipped : Skipped mark skipped)
    (lines : List Line) :
    List.Forall₂ (fun (line : Line) row => row.fields = line.fields.map encode) lines
      (rowsFrom mark position (skipped ++ encode (lines.flatMap Line.text))) := by
  have hbytes : encode (lines.flatMap Line.text) =
      (lines.map fun line => encode line.text).flatten := by
    induction lines with
    | nil => rfl
    | cons line lines ih =>
      rw [List.flatMap_cons, Text.Utf8.encode_append, ih, List.map_cons, List.flatten_cons]
  have htexts : List.Forall₂ (RowText mark) (lines.map fun line => encode line.text)
      (lines.map fun line => line.fields.map encode) :=
    List.forall₂_map_left_iff.2 <| List.forall₂_map_right_iff.2 <|
      List.forall₂_same.2 fun line _ => line.rowText hmark
  have hrows := (fields_rowsFrom position hskipped htexts).symm
  rw [← List.forall₂_eq_eq_eq, List.forall₂_map_left_iff, List.forall₂_map_right_iff] at hrows
  rw [hbytes]
  exact hrows.imp fun _ _ h => h.symm

/-- A table of written lines is read as its header and its rows. -/
theorem Table.ofBytes_lines (header : Line) (lines : List Line)
    (hwidth : ∀ line ∈ lines, line.fields.length = header.fields.length) :
    ∃ records, Table.ofBytes (encode (header.text ++ lines.flatMap Line.text)) =
      .ok ⟨header.fields, records⟩ ∧ List.Forall₂ Line.Reads lines records := by
  have hrows := forall₂_rowsFrom (.inl rfl) ⟨0, 1, 0⟩ (skipped_nil none) (header :: lines)
  rw [List.nil_append, List.flatMap_cons, ← rows_encode (header.head?_text _)] at hrows
  rw [Table.ofBytes]
  obtain ⟨first, rest, hfirst, hrest, heq⟩ := List.forall₂_cons_left_iff.1 hrows
  have hlength : first.fields.length = header.fields.length := by rw [hfirst, List.length_map]
  simp only [heq, decode_eq hfirst, header.map_trim, hlength]
  refine ⟨_, rfl, List.forall₂_map_right_iff.2 ?_⟩
  refine (List.forall₂_and_left _ _ |>.2 ⟨hwidth, hrest⟩).imp fun line row ⟨hline, hrow⟩ => ?_
  refine ⟨row.position, ?_⟩
  have hfields : row.strip.fields.length = header.fields.length := by
    rw [Row.strip, List.length_map, hrow, List.length_map, hline]
  rw [Row.decodeAs, if_pos hfields, decode_strip hrow, line.map_trim]

theorem recordsWithComments_lines (comments : List Comment) (lines : List Line) :
    List.Forall₂ Line.Reads lines
      (recordsWithComments
        (encode (comments.flatMap Comment.text ++ lines.flatMap Line.text))) := by
  have hskipped : Skipped (some (ascii '#')) (encode (comments.flatMap Comment.text)) := by
    induction comments with
    | nil => exact skipped_nil _
    | cons comment comments ih =>
      rw [List.flatMap_cons, Text.Utf8.encode_append]
      exact comment.skipped.append ih
  have hrows := forall₂_rowsFrom (.inr rfl) ⟨0, 1, 0⟩ hskipped lines
  have hhead : ∀ c ∈ (comments.flatMap Comment.text ++ lines.flatMap Line.text).head?,
      c.toNat < 0x80 := by
    rcases comments with _ | ⟨comment, comments⟩
    · rcases lines with _ | ⟨line, lines⟩
      · simp
      · exact line.head?_text _
    · rintro c hc
      cases hc
      decide
  rw [← Text.Utf8.encode_append, ← rows_encode hhead] at hrows
  refine List.forall₂_map_right_iff.2 (hrows.imp fun line row hrow => ⟨row.position, ?_⟩)
  rw [decode_strip hrow, line.map_trim]

end TrackingScore.Csv
