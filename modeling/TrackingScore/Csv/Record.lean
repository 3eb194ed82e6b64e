import TrackingScore.Csv.Row
import TrackingScore.Error
import TrackingScore.Text.Blank
import TrackingScore.Text.Utf8

/-!
Rows read as text. Fields lose the white space around them; a table with a header wants all its
rows as wide as the header. The place of a fault in a field counts from the start of the field in a
header, and from the first byte that is no ASCII space in other rows.
-/

namespace TrackingScore.Csv

structure Record where
  position : Position
  fields : List (List Char)
  deriving Repr, DecidableEq

def decodeFields (position : Position) : Nat → List (List UInt8) → Except CsvFault (List (List Char))
  | _, [] => .ok []
  | index, field :: fields =>
    match Text.Utf8.decode field with
    | .error offset => .error (.invalidText position index offset)
    | .ok cs => (decodeFields position (index + 1) fields).map (Text.trim cs :: ·)

def Row.decode (row : Row) : Except CsvFault Record :=
  (decodeFields row.position 0 row.fields).map (⟨row.position, ·⟩)

/-- Without the ASCII spaces in front of its fields. -/
def Row.strip (row : Row) : Row :=
  { row with fields := row.fields.map (List.dropWhile Text.isSpaceByte) }

def Row.decodeAs (width : Nat) (row : Row) : Except CsvFault Record :=
  if row.fields.length = width then row.decode
  else .error (.unequalLengths row.position row.fields.length width)

structure Table where
  header : List (List Char)
  records : List (Except CsvFault Record)

/-- Reads a table whose first row is its header; an empty text has an empty header. -/
def Table.ofBytes (bytes : List UInt8) : Except CsvFault Table :=
  match rows none bytes with
  | [] => .ok ⟨[], []⟩
  | first :: rest => do
    let header ← first.decode
    return ⟨header.fields, rest.map fun row => row.strip.decodeAs first.fields.length⟩

/-- Reads rows of any width without a header, passing over lines that start with `#`. -/
def recordsWithComments (bytes : List UInt8) : List (Except CsvFault Record) :=
  (rows (some (Text.ascii '#')) bytes).map fun row => row.strip.decode

def Record.field {α : Type} (record : Record) (index : Nat) : Except (EvalError α) (List Char) :=
  match record.fields[index]? with
  | some field => .ok field
  | none => .error (.ingestion (.shortRow record.position))

end TrackingScore.Csv
