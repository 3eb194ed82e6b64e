import TrackingScore.Proofs.CsvRoundTrip

/-!
Quoted fields. Between quotes a field may hold any bytes, its own quotes doubled, and it is read as
those bytes; so every table of byte fields is read back from the text that quotes all of them.
-/

namespace TrackingScore.Csv

open Text (ascii)

def quoteByte (b : UInt8) : List UInt8 := if b = ascii '"' then [b, b] else [b]

def quoteField (field : List UInt8) : List UInt8 :=
  ascii '"' :: (field.flatMap quoteByte ++ [ascii '"'])

section field

theorem rowSize_quoted (field rest : List UInt8) :
    rowSize .quoted (field.flatMap quoteByte ++ ascii '"' :: rest) =
      (field.flatMap quoteByte).length + (rowSize .quoteSeen rest + 1) := by
  induction field with
  | nil => simp [rowSize, step]
  | cons b field ih =>
    rw [List.flatMap_cons, List.append_assoc, List.length_append, quoteByte]
    split
    · subst b
      simp only [List.cons_append, List.nil_append, rowSize, step, if_true, ih,
        List.length_cons, List.length_nil]
      omega
    · rename_i hb
      simp only [List.cons_append, List.nil_append, rowSize, step, if_neg hb, ih,
        List.length_cons, List.length_nil]
      omega

theorem fields_quoted (field : List UInt8) {rest first : List UInt8} {others : List (List UInt8)}
    (h : fields .quoteSeen rest = first :: others) :
    fields .quoted (field.flatMap quoteByte ++ ascii '"' :: rest) = (field ++ first) :: others := by
  induction field with
  | nil => simpa [fields, step] using h
  | cons b field ih =>
    rw [List.flatMap_cons, List.append_assoc, quoteByte]
    split
    · subst b
      simp only [List.cons_append, List.nil_append, fields, step, if_true, ih, consByte]
    · rename_i hb
      simp only [List.cons_append, List.nil_append, fields, step, if_neg hb, ih, consByte]

theorem start_quoteField (field rest : List UInt8) :
    rowSize .start (quoteField field ++ rest) =
        rowSize .quoted (field.flatMap quoteByte ++ ascii '"' :: rest) + 1 ∧
      fields .start (quoteField field ++ rest) =
        fields .quoted (field.flatMap quoteByte ++ ascii '"' :: rest) := by
  simp [quoteField, rowSize, fields, step]

theorem length_quoteField (field : List UInt8) :
    (quoteField field).length = (field.flatMap quoteByte).length + 2 := by
  simp [quoteField]

theorem fieldText_quoteField (field : List UInt8) : FieldText (quoteField field) field where
  rowSize_comma rest := by
    have hend : rowSize .quoteSeen (ascii ',' :: rest) = rowSize .start rest + 1 := rfl
    rw [(start_quoteField field _).1, rowSize_quoted, hend, length_quoteField]
    omega
  rowSize_lineFeed rest := by
    have hend : rowSize .quoteSeen (ascii '\n' :: rest) = 1 := rfl
    rw [(start_quoteField field _).1, rowSize_quoted, hend, length_quoteField]
  fields_comma rest := by
    have hend : fields .quoteSeen (ascii ',' :: rest) = [] :: fields .start rest := rfl
    rw [(start_quoteField field _).2, fields_quoted field hend, List.append_nil]
  fields_lineFeed rest := by
    have hend : fields .quoteSeen (ascii '\n' :: rest) = [[]] := rfl
    rw [(start_quoteField field _).2, fields_quoted field hend, List.append_nil]

end field

def quoteRow (row : List (List UInt8)) : List UInt8 := writeRow (row.map quoteField)

theorem rowText_quoteRow {mark : Option UInt8} (hmark : mark ≠ some (ascii '"'))
    {row : List (List UInt8)} (hne : row ≠ []) : RowText mark (quoteRow row) row := by
  obtain ⟨field, row, rfl⟩ := List.exists_cons_of_ne_nil hne
  have hfields : List.Forall₂ FieldText ((field :: row).map quoteField) (field :: row) :=
    List.forall₂_map_left_iff.2 (List.forall₂_same.2 fun field _ => fieldText_quoteField field)
  exact rowText_writeRow hfields (by decide) hmark

theorem rows_quoteRow (mark : Option UInt8) (row : List (List UInt8)) (hne : row ≠ [])
    (rest : List UInt8) :
    rows mark (quoteRow row ++ rest) = rowsFrom mark ⟨0, 1, 0⟩ (quoteRow row ++ rest) := by
  obtain ⟨more, hmore⟩ : ∃ more, quoteRow row ++ rest = ascii '"' :: more := by
    obtain ⟨field, row, rfl⟩ := List.exists_cons_of_ne_nil hne
    rcases row with _ | ⟨next, row⟩
    · exact ⟨_, congrArg (· ++ rest) (writeRow_singleton (quoteField field))⟩
    · exact ⟨_, congrArg (· ++ rest) (writeRow_cons_cons (quoteField field) _ _)⟩
  rw [hmore]
  unfold rows
  split
  · rename_i rest' heq
    exact absurd (List.cons.inj heq).1 (by decide)
  · rfl

/-- Rows that have fields are read back from the text that quotes all of them. -/
theorem fields_rows_quoteRow {mark : Option UInt8} (hmark : mark ≠ some (ascii '"'))
    {table : List (List (List UInt8))} (hne : ∀ row ∈ table, row ≠ []) :
    (rows mark (table.flatMap quoteRow)).map Row.fields = table := by
  have htexts : List.Forall₂ (RowText mark) (table.map quoteRow) table :=
    List.forall₂_map_left_iff.2 <| List.forall₂_same.2 fun row hrow =>
      rowText_quoteRow hmark (hne row hrow)
  have hfields := fields_rowsFrom ⟨0, 1, 0⟩ (skipped_nil mark) htexts
  rw [List.nil_append] at hfields
  rcases table with _ | ⟨row, table⟩
  · exact hfields
  · rw [List.flatMap_cons, rows_quoteRow mark row (hne row (by simp))]
    exact hfields

end TrackingScore.Csv
