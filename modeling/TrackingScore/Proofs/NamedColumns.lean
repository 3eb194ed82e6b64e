import Mathlib.Data.List.FinRange
import TrackingScore.Proofs.CsvQuoting
import TrackingScore.Proofs.FirstFailure
import TrackingScore.Table.Pose

/-!
Tables of text by their columns. A file holds a table if its rows are the names of the columns and then
the cells of each row, however its fields are quoted. The readers look for a column by its trimmed
name, one that has the first of several names going before the others.
-/

namespace TrackingScore.Table

open Text.Utf8 (encode)

structure Column (height : Nat) where
  name : List Char
  cells : Fin height → List Char

variable {height : Nat}

namespace Column

def single (name cell : String) : Column 1 := ⟨name.toList, fun _ => cell.toList⟩

variable (c : Column height)

def title : List Char := Text.trim c.name

def field (i : Fin height) : List Char := Text.trim (c.cells i)

theorem trim_title : Text.trim c.title = c.title := Text.trim_trim c.name

end Column

/-! ## Files of tables -/

/-- The texts of a table: the names of its columns and then the cells of each row. -/
def texts (columns : List (Column height)) : List (List (List Char)) :=
  columns.map Column.name :: (List.finRange height).map fun i => columns.map (·.cells i)

def Holds (file : List UInt8) (columns : List (Column height)) : Prop :=
  (Csv.rows none file).map Csv.Row.fields = (texts columns).map (List.map encode)

def quotedFile (columns : List (Column height)) : List UInt8 :=
  ((texts columns).map (List.map encode)).flatMap Csv.quoteRow

theorem holds_quotedFile {columns : List (Column height)} (h : columns ≠ []) :
    Holds (quotedFile columns) columns := by
  refine Csv.fields_rows_quoteRow (by simp) ?_
  simp [texts, h]

def ReadsRow (columns : List (Column height)) (i : Fin height)
    (record : Except CsvFault Csv.Record) : Prop :=
  ∃ position, record = .ok ⟨position, columns.map (·.field i)⟩

/-- A table is read as its titles and its rows, in order. -/
theorem Holds.ofBytes {file : List UInt8} {columns : List (Column height)}
    (h : Holds file columns) :
    ∃ records, Csv.Table.ofBytes file = .ok ⟨columns.map Column.title, records⟩ ∧
      List.Forall₂ (ReadsRow columns) (List.finRange height) records := by
  rw [Holds, texts, List.map_cons] at h
  obtain ⟨first, rest, hrows, hfirst, hrest⟩ := List.map_eq_cons_iff.1 h
  have hlength : first.fields.length = columns.length := by
    rw [hfirst, List.length_map, List.length_map]
  have htitles : (columns.map Column.name).map Text.trim = columns.map Column.title :=
    List.map_map
  rw [Csv.Table.ofBytes, hrows]
  simp only [Csv.decode_eq hfirst, htitles, hlength]
  refine ⟨_, rfl, List.forall₂_map_right_iff.2 ?_⟩
  rw [← List.forall₂_eq_eq_eq, List.forall₂_map_left_iff, List.forall₂_map_right_iff,
    List.forall₂_map_right_iff] at hrest
  refine hrest.flip.imp fun i row hrow => ⟨row.position, ?_⟩
  have hwidth : row.strip.fields.length = columns.length := by
    rw [Csv.Row.strip, List.length_map, hrow, List.length_map, List.length_map]
  rw [Csv.Row.decodeAs, if_pos hwidth, Csv.decode_strip hrow, List.map_map]
  rfl

theorem mapM_withRecord_of_reads {α β : Type} {columns : List (Column height)}
    {records : List (Except CsvFault Csv.Record)}
    (h : List.Forall₂ (ReadsRow columns) (List.finRange height) records)
    {use : Csv.Record → Except (EvalError α) β} {ofRow : Fin height → Except (EvalError α) β}
    (huse : ∀ i position, use ⟨position, columns.map (·.field i)⟩ = ofRow i) :
    records.mapM (withRecord use) = (List.finRange height).mapM ofRow := by
  refine (mapM_eq_mapM (h.imp ?_)).symm
  rintro i _ ⟨position, rfl⟩
  exact (huse i position).symm

/-! ## Columns by name -/

/-- The first column that has one of the names, the first name going first. -/
def named? (columns : List (Column height)) (names : List String) : Option (Column height) :=
  names.findSome? fun name => columns.find? fun c => c.title = name.toList

theorem named?_cases (columns : List (Column height)) (names : List String) :
    (∃ index c, column? (columns.map Column.title) names = some index ∧
      columns[index]? = some c ∧ named? columns names = some c) ∨
    column? (columns.map Column.title) names = none ∧ named? columns names = none := by
  induction names with
  | nil => exact .inr ⟨rfl, rfl⟩
  | cons name names ih =>
    have hindex : (columns.map Column.title).findIdx? (fun field => Text.trim field = name.toList) =
        columns.findIdx? fun c => c.title = name.toList := by
      rw [List.findIdx?_map]
      simp only [Function.comp_def, Column.trim_title]
    have hfind : columns.find? (fun c => c.title = name.toList) =
        (columns.findIdx? fun c => c.title = name.toList).bind fun index => columns[index]? :=
      List.find?_eq_bind_findIdx?_getElem?
    rw [column?, named?, List.findSome?_cons, List.findSome?_cons, hindex, hfind]
    cases hfound : columns.findIdx? fun c => c.title = name.toList with
    | none => exact ih
    | some index =>
      obtain ⟨hlt, -⟩ := List.findIdx?_eq_some_iff_getElem.1 hfound
      refine .inl ⟨index, columns[index], rfl, List.getElem?_eq_getElem hlt, ?_⟩
      simp [List.getElem?_eq_getElem hlt]

/-- What a row says in the column of one of the names. -/
def fieldOf (columns : List (Column height)) (i : Fin height) (names : List String) : List Char :=
  ((named? columns names).map (·.field i)).getD []

section found

variable {α : Type} {columns : List (Column height)} {names : List String}

theorem exists_column_of_named (h : (named? columns names).isSome) :
    ∃ index, column? (columns.map Column.title) names = some index ∧
      ∀ i position, Csv.Record.field (α := α) ⟨position, columns.map (·.field i)⟩ index =
        .ok (fieldOf columns i names) := by
  rcases named?_cases columns names with ⟨index, c, hcolumn, hget, hnamed⟩ | ⟨-, hnone⟩
  · refine ⟨index, hcolumn, fun i position => ?_⟩
    rw [Csv.Record.field, List.getElem?_map, hget, fieldOf, hnamed]
    rfl
  · simp [hnone] at h

theorem column?_eq_none_of_named (h : named? columns names = none) :
    column? (columns.map Column.title) names = none := by
  rcases named?_cases columns names with ⟨_, _, _, _, hnamed⟩ | ⟨hcolumn, -⟩
  · rw [h] at hnamed
    cases hnamed
  · exact hcolumn

end found
end TrackingScore.Table
